import Mathlib.Data.Nat.Digits.Defs
import Mathlib.Tactic.IntervalCases
import Phrasebook.Proofs.Text.Place
import Phrasebook.Standard.Expression
import Phrasebook.Text.Case

/-!
Chains of numerals joined by operators, as they are written, and what they come to. A chain is cut at
its first plus; if there is none at its first minus, else at its first star, else at its first slash,
and both sides are reckoned in the same way. So a minus takes all that follows it, up to the next plus.
-/

namespace Phrasebook.Standard

structure Numeral where
  digits : Text
  nonempty : digits ≠ []
  ascii : digits.all Char.isDigit = true

namespace Numeral

def digit (c : Char) (h : c.isDigit = true) : Numeral := ⟨[c], by simp, by simpa using h⟩

def value (n : Numeral) : Nat := Nat.ofDigits 10 (n.digits.reverse.map fun c => c.toNat - '0'.toNat)

theorem isDigit_of_mem {n : Numeral} {c : Char} (h : c ∈ n.digits) : c.isDigit = true :=
  List.all_eq_true.1 n.ascii c h

theorem exists_first (n : Numeral) : ∃ d t, n.digits = d :: t ∧ d.isDigit = true := by
  obtain ⟨d, t, h⟩ := List.exists_cons_of_ne_nil n.nonempty
  exact ⟨d, t, h, isDigit_of_mem (h ▸ List.mem_cons_self)⟩

end Numeral

/-- The operators in the order in which a chain is searched for them. -/
def Operator.inOrder : List Operator := [add, subtract, multiply, divide]

/-- The exact result; quotients have none. -/
def Operator.exact : Operator → Int → Int → Option Int
  | add, a, b => some (a + b)
  | subtract, a, b => some (a - b)
  | multiply, a, b => some (a * b)
  | divide, _, _ => none

/-- An integer that fits 64 bits. -/
def fit (n : Int) : Option Int := if -2 ^ 63 ≤ n ∧ n < 2 ^ 63 then some n else none

inductive Chain where
  | numeral (n : Numeral)
  | link (n : Numeral) (op : Operator) (rest : Chain)

namespace Chain

def first : Chain → Numeral
  | numeral n => n
  | link n _ _ => n

def operators : Chain → List Operator
  | numeral _ => []
  | link _ op rest => op :: rest.operators

def text : Chain → Text
  | numeral n => n.digits
  | link n op rest => n.digits ++ ' ' :: op.symbol :: ' ' :: rest.text

/-- The two sides of the first operator of a kind. -/
def cutAt? (op : Operator) : Chain → Option (Chain × Chain)
  | numeral _ => none
  | link n o rest =>
    if o = op then some (numeral n, rest)
    else (rest.cutAt? op).map fun (l, r) => (link n o l, r)

/-- The operator at which a chain is cut, and the two sides. -/
def cut? (c : Chain) : Option (Operator × Chain × Chain) :=
  Operator.inOrder.findSome? fun op => (c.cutAt? op).map fun (l, r) => (op, l, r)

theorem cutAt?_eq_none {op : Operator} {c : Chain} (h : c.cutAt? op = none) : op ∉ c.operators := by
  induction c with
  | numeral n => exact List.not_mem_nil
  | link n o rest ih =>
    rw [cutAt?] at h
    split at h
    · cases h
    · rename_i ho
      have hrest := ih (Option.map_eq_none_iff.1 h)
      exact fun hmem => hrest ((List.mem_cons.1 hmem).resolve_left fun heq => ho heq.symm)

theorem cutAt?_eq_some {op : Operator} {c l r : Chain} (h : c.cutAt? op = some (l, r)) :
    c.text = l.text ++ ' ' :: op.symbol :: ' ' :: r.text ∧
      c.operators = l.operators ++ op :: r.operators ∧ op ∉ l.operators := by
  induction c generalizing l with
  | numeral n => cases h
  | link n o rest ih =>
    rw [cutAt?] at h
    split at h
    · rename_i ho
      cases h
      exact ⟨by rw [text, ho]; rfl, by rw [operators, ho]; rfl, List.not_mem_nil⟩
    · rename_i ho
      obtain ⟨⟨l', r'⟩, hcut, heq⟩ := Option.map_eq_some_iff.1 h
      cases heq
      obtain ⟨htext, hoperators, hnot⟩ := ih hcut
      refine ⟨?_, ?_, ?_⟩
      · rw [text, htext, text]
        simp
      · rw [operators, hoperators, operators]
        rfl
      · exact fun hmem => hnot ((List.mem_cons.1 hmem).resolve_left fun heq => ho heq.symm)

/-- Where a chain is cut: no operator in front of that one in the order stands in it at all, and that
one not on the left. -/
theorem cut?_eq_some {c l r : Chain} {op : Operator} (h : c.cut? = some (op, l, r)) :
    c.text = l.text ++ ' ' :: op.symbol :: ' ' :: r.text ∧
      c.operators = l.operators ++ op :: r.operators ∧ op ∉ l.operators ∧
      ∃ earlier later, Operator.inOrder = earlier ++ op :: later ∧
        ∀ o ∈ earlier, o ∉ c.operators := by
  obtain ⟨earlier, o, later, horder, hcut, hnone⟩ := List.findSome?_eq_some_iff.1 h
  obtain ⟨⟨l', r'⟩, hcut, heq⟩ := Option.map_eq_some_iff.1 hcut
  cases heq
  obtain ⟨htext, hoperators, hnot⟩ := cutAt?_eq_some hcut
  exact ⟨htext, hoperators, hnot, earlier, later, horder, fun o ho =>
    cutAt?_eq_none (Option.map_eq_none_iff.1 (hnone o ho))⟩

theorem cut?_eq_none {c : Chain} (h : c.cut? = none) : c = numeral c.first := by
  cases c with
  | numeral n => rfl
  | link n op rest =>
    have hop : op ∈ Operator.inOrder := by cases op <;> decide
    have hnone := List.findSome?_eq_none_iff.1 h op hop
    exact absurd List.mem_cons_self (cutAt?_eq_none (Option.map_eq_none_iff.1 hnone))

/-- What the chain comes to, if that and all results on the way fit. -/
def reckon (c : Chain) : Option Int :=
  match h : c.cut? with
  | none => fit c.first.value
  | some (op, l, r) =>
    have hlength : c.operators.length = l.operators.length + (r.operators.length + 1) := by
      rw [(cut?_eq_some h).2.1, List.length_append, List.length_cons]
    l.reckon.bind fun a => r.reckon.bind fun b => (op.exact a b).bind fit
termination_by c.operators.length

/-! ## The characters of a chain -/

def digitSigns : Text := ['0', '1', '2', '3', '4', '5', '6', '7', '8', '9']

def signs : Text := digitSigns ++ ' ' :: Operator.inOrder.map Operator.symbol

theorem mem_digitSigns {x : Char} (h : x.isDigit = true) : x ∈ digitSigns := by
  simp only [Char.isDigit, Bool.and_eq_true, decide_eq_true_eq] at h
  have hlo : 48 ≤ x.toNat := h.1
  have hhi : x.toNat ≤ 57 := h.2
  rw [← Char.ofNat_toNat x]
  generalize x.toNat = n at hlo hhi
  interval_cases n <;> decide

theorem symbol_mem_signs (op : Operator) : op.symbol ∈ signs := by cases op <;> decide

theorem not_digit_symbol (op : Operator) : op.symbol ∉ digitSigns := by cases op <;> decide

theorem symbol_ne_space (op : Operator) : op.symbol ≠ ' ' := by cases op <;> decide

theorem symbol_injective {op op' : Operator} (h : op.symbol = op'.symbol) : op = op' := by
  cases op <;> cases op' <;> first | rfl | (revert h; decide)

/-- No two signs agree up to case. -/
theorem sameLetter_symbol {x : Char} (hx : x ∈ signs) {op : Operator} (h : x ≠ op.symbol) :
    Text.sameLetter x op.symbol = false := by
  have hall : (signs.all fun x => x == op.symbol || !Text.sameLetter x op.symbol) = true := by
    cases op <;> decide +kernel
  have hx := List.all_eq_true.1 hall x hx
  simpa [h] using hx

theorem sameLetter_self (x : Char) : Text.sameLetter x x = true := by simp [Text.sameLetter]

theorem not_blank_of_digit {x : Char} (h : x ∈ digitSigns) : Text.isBlank x = false := by
  have hall : (digitSigns.all fun x => !Text.isBlank x) = true := by decide
  simpa using List.all_eq_true.1 hall x h

theorem not_blank_symbol (op : Operator) : Text.isBlank op.symbol = false := by cases op <;> decide

theorem mem_digitSigns_of_mem {n : Numeral} {x : Char} (h : x ∈ n.digits) : x ∈ digitSigns :=
  mem_digitSigns (Numeral.isDigit_of_mem h)

/-- A chain has signs only, and among them the symbols of its own operators only. -/
theorem mem_text {c : Chain} {x : Char} (h : x ∈ c.text) :
    x ∈ signs ∧ ∀ op : Operator, x = op.symbol → op ∈ c.operators := by
  have hdigit {n : Numeral} {ops : List Operator} (hx : x ∈ n.digits) :
      x ∈ signs ∧ ∀ op : Operator, x = op.symbol → op ∈ ops := by
    have hx := mem_digitSigns_of_mem hx
    refine ⟨List.mem_append_left _ hx, ?_⟩
    rintro op rfl
    exact absurd hx (not_digit_symbol op)
  induction c with
  | numeral n => exact hdigit h
  | link n o rest ih =>
    rw [text, List.mem_append, List.mem_cons, List.mem_cons, List.mem_cons] at h
    rcases h with h | rfl | rfl | rfl | h
    · exact hdigit h
    · exact ⟨by decide, fun op hop => absurd hop.symm (symbol_ne_space op)⟩
    · exact ⟨symbol_mem_signs o, fun op hop => symbol_injective hop ▸ List.mem_cons_self⟩
    · exact ⟨by decide, fun op hop => absurd hop.symm (symbol_ne_space op)⟩
    · obtain ⟨hsigns, hop⟩ := ih h
      exact ⟨hsigns, fun op heq => List.mem_cons_of_mem o (hop op heq)⟩

theorem sameLetter_of_not_mem {c : Chain} {op : Operator} (hop : op ∉ c.operators) {x : Char}
    (hx : x ∈ c.text) : Text.sameLetter x op.symbol = false := by
  obtain ⟨hsigns, hown⟩ := mem_text hx
  exact sameLetter_symbol hsigns fun heq => hop (hown op heq)

theorem exists_first (c : Chain) : ∃ d t, c.text = d :: t ∧ d ∈ digitSigns := by
  obtain ⟨d, t, hd⟩ := List.exists_cons_of_ne_nil c.first.nonempty
  have hdigit : d ∈ digitSigns := mem_digitSigns_of_mem (hd ▸ List.mem_cons_self)
  cases c with
  | numeral n => exact ⟨d, t, hd, hdigit⟩
  | link n op rest =>
    refine ⟨d, t ++ ' ' :: op.symbol :: ' ' :: rest.text, ?_, hdigit⟩
    rw [text, show n.digits = d :: t from hd, List.cons_append]

theorem exists_last (c : Chain) : ∃ t d, c.text = t ++ [d] ∧ d ∈ digitSigns := by
  induction c with
  | numeral n =>
    refine ⟨_, _, (List.dropLast_append_getLast n.nonempty).symm, ?_⟩
    exact mem_digitSigns_of_mem (List.getLast_mem n.nonempty)
  | link n op rest ih =>
    obtain ⟨t, d, ht, hd⟩ := ih
    exact ⟨n.digits ++ ' ' :: op.symbol :: ' ' :: t, d, by rw [text, ht]; simp, hd⟩

theorem text_ne_nil (c : Chain) : c.text ≠ [] := by
  obtain ⟨d, t, h, -⟩ := c.exists_first
  rw [h]
  exact List.cons_ne_nil d t

/-- A chain with blanks behind it is trimmed to the chain. -/
theorem trim_text (c : Chain) {b : Text} (hb : ∀ x ∈ b, Text.isBlank x = true) :
    Text.trim (c.text ++ b) = c.text := by
  refine Text.trim_append c.text_ne_nil ?_ ?_ hb
  · obtain ⟨d, t, h, hd⟩ := c.exists_first
    rw [h]
    intro x hx
    cases hx
    exact not_blank_of_digit hd
  · obtain ⟨t, d, h, hd⟩ := c.exists_last
    rw [h]
    intro x hx
    rw [List.getLast?_concat] at hx
    cases hx
    exact not_blank_of_digit hd

theorem trim_self (c : Chain) : Text.trim c.text = c.text := by
  simpa using c.trim_text (b := []) (by simp)

theorem length_operators_le (c : Chain) : c.operators.length ≤ c.text.width := by
  induction c with
  | numeral n => exact Nat.zero_le _
  | link n op rest ih =>
    have := op.symbol.utf8Size_pos
    rw [operators, List.length_cons, text]
    simp only [Text.width_append, Text.width_cons]
    omega

end Chain

end Phrasebook.Standard
