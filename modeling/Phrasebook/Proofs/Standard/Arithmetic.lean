import Phrasebook.Proofs.Matching.Ends
import Phrasebook.Proofs.Phrase
import Phrasebook.Proofs.Resolution.Found
import Phrasebook.Proofs.Resolution.Nesting
import Phrasebook.Proofs.Standard.Book

/-!
Chains in the standard book. A chain is one numeral, which is read as a literal, or it is cut by the
phrase for arithmetic, and by no other: every other phrase asks for a letter. The cut is that of the
reckoning, both sides are chains again, and so the expression found has the value that the chain
comes to, whatever was of use before.
-/

namespace Phrasebook.Standard

open Search

/-- The expression has one value, the integer `n`. -/
def ComesTo (n : Int) (e : Expression) : Prop := ∃ m : Int64, m.toInt = n ∧ e.values = [.integer m]

/-! ## Numerals -/

theorem natural?_digits (n : Numeral) : natural? n.digits = some n.value := by
  rw [natural?, if_pos ⟨n.nonempty, n.ascii⟩, Numeral.value, Nat.ofDigits_eq_foldr, List.foldr_map,
    List.foldr_reverse]
  congr 1
  refine congrArg (fun f => List.foldl f 0 n.digits) ?_
  funext k c
  exact Nat.add_comm _ _

theorem int64?_of_fit {n k : Int} (h : fit n = some k) :
    ∃ m : Int64, int64? n = some m ∧ m.toInt = k := by
  unfold fit at h
  split at h
  · rename_i hn
    cases h
    have hbounds : Int64.minValue.toInt ≤ n ∧ n ≤ Int64.maxValue.toInt := by
      have hmin : Int64.minValue.toInt = -2 ^ 63 := by decide
      have hmax : Int64.maxValue.toInt = 2 ^ 63 - 1 := by decide
      omega
    exact ⟨Int64.ofInt n, if_pos hbounds, Int64.toInt_ofInt_of_le hn.1 hn.2⟩
  · cases h

theorem integer?_digits {n : Numeral} {k : Int} (h : fit n.value = some k) :
    ∃ m : Int64, integer? n.digits = some (.integer m) ∧ m.toInt = k := by
  obtain ⟨m, hm, hk⟩ := int64?_of_fit h
  refine ⟨m, ?_, hk⟩
  have hdigits := natural?_digits n
  unfold integer?
  split
  · rename_i digits heq
    have := Numeral.isDigit_of_mem (n := n) (heq ▸ List.mem_cons_self)
    cases this
  · rename_i digits heq
    have := Numeral.isDigit_of_mem (n := n) (heq ▸ List.mem_cons_self)
    cases this
  · rw [hdigits]
    simp [hm]

/-! ## The result -/

theorem onValues_integers {op : Operator} {a b : Int64} {n k : Int}
    (hexact : op.exact a.toInt b.toInt = some n) (hfit : fit n = some k) :
    ∃ m : Int64, op.onValues (.integer a) (.integer b) = some (.integer m) ∧ m.toInt = k := by
  obtain ⟨m, hm, hk⟩ := int64?_of_fit hfit
  refine ⟨m, ?_, hk⟩
  have hintegers : op.onIntegers a b = some m := by
    cases op with
    | divide => cases hexact
    | _ => cases hexact; exact hm
  simp only [Operator.onValues, hintegers]

theorem comesTo_arithmetic {op : Operator} {a b n k : Int} {left right : Expression}
    (hleft : ComesTo a left) (hright : ComesTo b right) (hexact : op.exact a b = some n)
    (hfit : fit n = some k) : ComesTo k (arithmetic left op right) := by
  obtain ⟨x, rfl, hx⟩ := hleft
  obtain ⟨y, rfl, hy⟩ := hright
  obtain ⟨m, hm, hk⟩ := onValues_integers hexact hfit
  refine ⟨m, hk, ?_⟩
  simp [arithmetic, made, Expression.value?, hx, hy, hm]

theorem makeArithmetic_cut (source : Text) (left right : Expression) (op : Operator) :
    makeArithmetic ⟨source, 0, ⟨[left, right], [], op.mark⟩⟩ = .ok (arithmetic left op right) := by
  cases op <;> rfl

/-! ## The cut -/

theorem skipBlank_left (c : Chain) : c.text.skipBlank 0 = 0 := by
  obtain ⟨d, t, hc, hd⟩ := c.exists_first
  exact Text.skipBlank_of_not_blank (Text.after?_eq_some_iff.2 ⟨[], hc, rfl⟩)
    (Chain.not_blank_of_digit hd)

section

variable {c l r : Chain} {op : Operator} (hcut : c.cut? = some (op, l, r))

include hcut

theorem after?_left :
    c.text.after? (l.text.width + 1) = some (op.symbol :: ' ' :: r.text) := by
  obtain ⟨htext, -⟩ := Chain.cut?_eq_some hcut
  rw [htext]
  refine Text.after?_eq_some_iff.2 ⟨l.text ++ [' '], by simp, ?_⟩
  rw [Text.width_append]
  rfl

theorem after?_symbol : c.text.after? (l.text.width + 2) = some (' ' :: r.text) := by
  obtain ⟨htext, -⟩ := Chain.cut?_eq_some hcut
  rw [htext]
  refine Text.after?_eq_some_iff.2 ⟨l.text ++ [' ', op.symbol], by simp, ?_⟩
  rw [Text.width_append]
  cases op <;> rfl

theorem after?_right : c.text.after? (l.text.width + 3) = some r.text := by
  obtain ⟨htext, -⟩ := Chain.cut?_eq_some hcut
  rw [htext]
  refine Text.after?_eq_some_iff.2 ⟨l.text ++ [' ', op.symbol, ' '], by simp, ?_⟩
  rw [Text.width_append]
  cases op <;> rfl

theorem between?_left : c.text.between? 0 (l.text.width + 1) = some (l.text ++ [' ']) := by
  obtain ⟨htext, -⟩ := Chain.cut?_eq_some hcut
  have hzero : c.text.after? 0 = some ((l.text ++ [' ']) ++ op.symbol :: ' ' :: r.text) :=
    Text.after?_eq_some_iff.2 ⟨[], by simp [htext], rfl⟩
  have h := Text.between?_of_after? hzero
  rw [Nat.zero_add, Text.width_append] at h
  exact h

theorem width_sides : c.text.width = l.text.width + 3 + r.text.width := by
  obtain ⟨a, htext, ha⟩ := Text.after?_eq_some_iff.1 (after?_right hcut)
  rw [htext, Text.width_append, ha]

theorem between?_right : c.text.between? (l.text.width + 3) c.text.width = some r.text := by
  have h := after?_right hcut
  rw [← List.append_nil r.text] at h
  have h := Text.between?_of_after? h
  rwa [← width_sides hcut] at h

theorem place?_symbol [RegexEngine] :
    (Boundary.word [op.symbol] false false).place? c.text 0 = some (l.text.width + 1) := by
  obtain ⟨htext, -, hnot, -⟩ := Chain.cut?_eq_some hcut
  have hleft : ∀ x ∈ l.text ++ [' '], Text.sameLetter x op.symbol = false := by
    intro x hx
    rcases List.mem_append.1 hx with hx | hx
    · exact Chain.sameLetter_of_not_mem hnot hx
    · rw [List.mem_singleton.1 hx]
      exact Chain.sameLetter_symbol (by decide) (Chain.symbol_ne_space op).symm
  have h := Boundary.place?_sign hleft (Chain.sameLetter_self op.symbol) (t := ' ' :: r.text)
  rw [List.append_assoc, Text.width_append] at h
  rw [htext]
  exact h

/-! No blank is stepped over in front of a part but the one behind the operator. -/

theorem skipBlank_symbol : c.text.skipBlank (l.text.width + 1) = l.text.width + 1 :=
  Text.skipBlank_of_not_blank (after?_left hcut) (Chain.not_blank_symbol op)

theorem skipBlank_space : c.text.skipBlank (l.text.width + 2) = l.text.width + 3 := by
  obtain ⟨d, t, hr, hd⟩ := r.exists_first
  have h := after?_symbol hcut
  rw [hr] at h
  exact Text.skipBlank_of_space h (Chain.not_blank_of_digit hd)

theorem skipBlank_right : c.text.skipBlank (l.text.width + 3) = l.text.width + 3 := by
  obtain ⟨d, t, hr, hd⟩ := r.exists_first
  have h := after?_right hcut
  rw [hr] at h
  exact Text.skipBlank_of_not_blank h (Chain.not_blank_of_digit hd)

end

/-! ## The phrase for arithmetic -/

section

open Matching

variable [RegexEngine] {resolve : Resolver} {P Q : Expression → Prop} {enclosing : List Frame}

/-- For one side of a chain the resolver yields an expression with `P` when it is asked in an attempt on
the chain. -/
def YieldsWithin (P : Expression → Prop) (resolve : Resolver) (enclosing : List Frame)
    (c side : Chain) : Prop :=
  ∀ f : Frame, f.source = c.text → Yields P (resolve side.text number .both (f :: enclosing))

def Operator.boundary (op : Operator) : Boundary := .word [op.symbol] false false

theorem boundaries_left :
    Tail.boundaries [[.literal [' '], .choice (Operator.inOrder.map Operator.branch), .literal [' '],
      .slot [number] .both false]] = Operator.inOrder.map Operator.boundary := rfl

/-- The phrase for arithmetic cuts a chain where the reckoning does, if both sides can be resolved. -/
theorem node_arithmetic {c l r : Chain} {op : Operator} (hcut : c.cut? = some (op, l, r))
    (hleft : YieldsWithin P resolve enclosing c l) (hright : YieldsWithin Q resolve enclosing c r) :
    Yields (fun x => x.1 = c.text.width ∧ ∃ left right, P left ∧ Q right ∧
        x.2.finish 0 = ⟨c.text, 0, ⟨[left, right], [], op.mark⟩⟩)
      (node resolve arithmeticPattern [] 0 (.start c.text enclosing)) := by
  obtain ⟨htext, -, -, earlier, later, horder, hnone⟩ := Chain.cut?_eq_some hcut
  have hmem : op.symbol ∈ c.text := by
    rw [htext]
    simp
  have hsize : l.text.width + 1 + op.symbol.utf8Size = l.text.width + 2 := by cases op <;> rfl
  have hleftTail := boundaries_left
  simp only [horder, List.map_append, List.map_cons] at hleftTail
  have hrightTail : Tail.boundaries [[]] = [] ++ .textEnd :: [] := rfl
  have hblank : Text.isBlank ' ' = true := by decide
  have hspace : Text.trim [' '] = [] := by decide
  have hsymbol := Chain.not_blank_symbol op
  unfold arithmeticPattern
  rw [horder, List.map_append, List.map_cons, node]
  refine parts_yields (slot_yields (P := P) hleftTail (skipBlank_left c) ?_ (place?_symbol hcut)
    (between?_left hcut)
    (resolveSlot_yields (l.trim_text (by simp [hblank])) l.text_ne_nil (hleft _ rfl))) ?_
  · intro b hb
    obtain ⟨o, ho, rfl⟩ := List.mem_map.1 hb
    exact Boundary.place?_word_eq_none fun x hx => Chain.sameLetter_of_not_mem (hnone o ho) hx
  rintro _ _ ⟨left, hP, ⟨⟩⟩
  refine parts_yields (blank_yields hspace (skipBlank_symbol hcut)) ?_
  rintro _ _ ⟨⟩
  refine parts_yields (choice_yields ?_
    (sign_yields hsymbol hsymbol (after?_left hcut) (Chain.sameLetter_self _) hsize)) ?_
  · intro b hb
    obtain ⟨o, ho, rfl⟩ := List.mem_map.1 hb
    exact sign_misses (Chain.not_blank_symbol o) hsymbol (after?_left hcut)
      (Chain.sameLetter_of_not_mem (hnone o ho) hmem)
  rintro _ _ ⟨⟩
  refine parts_yields (blank_yields hspace (skipBlank_space hcut)) ?_
  rintro _ _ ⟨⟩
  refine parts_yields (slot_yields (P := Q) hrightTail (skipBlank_right hcut) (by simp) rfl
    (between?_right hcut)
    (resolveSlot_yields r.trim_self r.text_ne_nil (hright _ rfl))) ?_
  rintro _ _ ⟨right, hQ, ⟨⟩⟩
  rw [parts]
  refine .pure ⟨rfl, left, right, hP, hQ, ?_⟩
  simp [Attempt.finish, Attempt.source, Attempt.findings, Attempt.addExpression, Attempt.addMark,
    Attempt.merge, Attempt.branch, Attempt.start, Findings.append, Findings.none]

theorem byCandidate_arithmetic {settings : Settings} {c l r : Chain} {op : Operator}
    (hcut : c.cut? = some (op, l, r))
    (hleft : YieldsWithin P resolve enclosing c l) (hright : YieldsWithin Q resolve enclosing c r) :
    Yields (fun e => ∃ left right, P left ∧ Q right ∧ e = arithmetic left op right)
      ((book settings).byCandidate resolve c.text number enclosing 0) := by
  have htry : Yields (fun e => ∃ left right, P left ∧ Q right ∧ e = arithmetic left op right)
      (Book.tryPhrase resolve .expressions 0 arithmeticPhrase (fun make o => make o) c.text
        enclosing) := by
    refine Book.tryPhrase_yields rfl ((node_arithmetic hcut hleft hright).mono ?_)
    rintro ⟨_, a⟩ ⟨rfl, left, right, hP, hQ, ha⟩
    refine ⟨rfl, arithmetic left op right, ?_, left, right, hP, hQ, rfl⟩
    dsimp only at ha ⊢
    rw [ha]
    exact makeArithmetic_cut c.text left right op
  unfold Book.byCandidate
  refine Yields.bind (.ofOption phrase_zero rfl) ?_
  rintro _ rfl
  refine htry.bind ?_
  rintro _ ⟨left, right, hP, hQ, rfl⟩
  have hadapt : (book settings).adapt (arithmetic left op right) ((book settings).classOf number) =
      arithmetic left op right := by
    unfold Book.adapt
    rw [classOf_number, classes_book]
    rfl
  dsimp only
  rw [hadapt, if_neg (by simp [arithmetic, made])]
  exact (Yields.change _).bind fun _ _ => .pure ⟨left, right, hP, hQ, rfl⟩

/-- No other phrase can do anything with a text of digits, operators and blanks, whatever is expected. -/
theorem byCandidate_misses [RegexEngine.Lawful] {settings : Settings} (hr : resolve.Faultless)
    {text : Text} (htext : text ⊆ Chain.signs) (expected : SlotType) (enclosing : List Frame) {id : Nat}
    (hid : id ≠ 0) : Misses ((book settings).byCandidate resolve text expected enclosing id) := by
  unfold Book.byCandidate
  cases hp : (book settings).expressions.phrases[id]? with
  | none => exact Misses.bind .failure _
  | some p =>
    rw [ofOption_some_bind]
    refine Misses.bind ?_ _
    unfold Book.tryPhrase
    refine Misses.first fun q hq => ?_
    refine .of_bind (.change _) fun _ => .of_bind (.change _) fun _ => Misses.bind ?_ _
    exact node_misses hr (insistsOn_letter hp hid q hq) htext enclosing

theorem byPhrase_arithmetic [RegexEngine.Lawful] {settings : Settings} (hr : resolve.Faultless)
    {c l r : Chain} {op : Operator} (hcut : c.cut? = some (op, l, r))
    (hleft : YieldsWithin P resolve enclosing c l) (hright : YieldsWithin Q resolve enclosing c r) :
    Yields (fun e => ∃ left right, P left ∧ Q right ∧ e = arithmetic left op right)
      ((book settings).byPhrase resolve c.text number enclosing) := by
  have hadmits : (book settings).expressions.admits
      ((book settings).compatible · ((book settings).classOf number)) 0 = true := by
    rw [classOf_number, PhraseTable.admits, phrase_zero, Option.any_some]
    exact compatible_of_isAssignable (c := arithmeticPhrase.returns) rfl
  unfold Book.byPhrase
  dsimp only
  refine Yields.session.bind fun s _ => ?_
  exact .first_of_mem (PhraseTable.mem_candidates.2 hadmits)
    (fun id hid => byCandidate_misses hr (fun _ hx => (Chain.mem_text hx).1) number enclosing hid)
    (byCandidate_arithmetic hcut hleft hright)

end

/-- An attempt on a wider text is not one on this text. -/
theorem isUnderWay_of_wider {t : Text} {enclosing : List Frame}
    (h : ∀ f ∈ enclosing, t.width < (Text.trim f.source).width) : isUnderWay t enclosing = false := by
  unfold isUnderWay
  rw [List.any_eq_false]
  intro f hf heq
  have := h f hf
  rw [eq_of_beq heq] at this
  exact Nat.lt_irrefl _ this

/-! ## Literals -/

/-! A text with digits in front that are followed by a blank is no literal. -/

theorem integer?_link (n : Numeral) (u : Text) : integer? (n.digits ++ ' ' :: u) = none := by
  obtain ⟨d, ds, hds, hd⟩ := n.exists_first
  have hnatural : natural? (n.digits ++ ' ' :: u) = none := by
    refine if_neg fun h => ?_
    have := List.all_eq_true.1 h.2 ' ' (by simp)
    cases this
  unfold integer?
  split
  · rename_i digits heq
    rw [hds] at heq
    cases heq
    cases hd
  · rename_i digits heq
    rw [hds] at heq
    cases heq
    cases hd
  · rw [hnatural]
    rfl

theorem decimal?_link (n : Numeral) (u : Text) : decimal? (n.digits ++ ' ' :: u) = none := by
  obtain ⟨d, ds, hds, hd⟩ := n.exists_first
  have hwhole : (n.digits ++ ' ' :: u).takeWhile Char.isDigit = n.digits := by
    rw [List.takeWhile_append_of_pos fun _ => Numeral.isDigit_of_mem,
      List.takeWhile_cons_of_neg (by decide), List.append_nil]
  unfold decimal?
  split
  rename_i negative t heq
  split at heq
  · rename_i t' ht
    rw [hds] at ht
    cases ht
    cases hd
  · cases heq
    simp [hwhole]

theorem boolean?_link (n : Numeral) (u : Text) : boolean? (n.digits ++ ' ' :: u) = none := by
  obtain ⟨d, ds, hds⟩ := List.exists_cons_of_ne_nil n.nonempty
  have hd : d ∈ Chain.digitSigns := Chain.mem_digitSigns_of_mem (hds ▸ List.mem_cons_self)
  have hdigits : Chain.digitSigns.all (fun c => c.toLower != 't' && c.toLower != 'f') = true := by decide
  have hletters := List.all_eq_true.1 hdigits d hd
  simp only [Bool.and_eq_true, bne_iff_ne] at hletters
  rw [hds]
  exact boolean?_eq_none hletters.1 hletters.2

theorem unquoted?_link (n : Numeral) (u : Text) : Text.unquoted? (n.digits ++ ' ' :: u) = none := by
  obtain ⟨d, ds, hds, hd⟩ := n.exists_first
  unfold Text.unquoted?
  split
  · rename_i rest heq
    rw [hds] at heq
    cases heq
    cases hd
  · rfl

section

variable [RegexEngine] {settings : Settings}

theorem literal?_numeral {n : Numeral} {k : Int} (h : fit n.value = some k) :
    ∃ e, (book settings).literal? n.digits .number = some e ∧ ComesTo k e := by
  obtain ⟨m, hm, hk⟩ := integer?_digits h
  have hinstance : (book settings).conversions.convert? (.integer m) .number = some (.integer m) :=
    convert?_of_isAssignable rfl
  obtain ⟨t₀, ts, hts, h₀, hreaders⟩ := List.map_eq_cons_iff.1 (@readers_book _ settings)
  obtain ⟨t₁, ts, rfl, h₁, -⟩ := List.map_eq_cons_iff.1 hreaders
  obtain ⟨hkind₀, hparse₀⟩ := Prod.mk.inj h₀
  obtain ⟨hkind₁, hparse₁⟩ := Prod.mk.inj h₁
  have hread₀ : Book.literalValue? t₀ n.digits = none := by
    unfold Book.literalValue? ValueType.parses
    rw [hparse₀, hkind₀]
    rfl
  have hread₁ : Book.literalValue? t₁ n.digits = some (.integer m) := by
    unfold Book.literalValue? ValueType.parses ValueType.parse
    rw [hparse₁]
    simp [number?, hm]
  refine ⟨.literal .integer [.integer m] n.digits, ?_, m, hk, rfl⟩
  have hcompatible : (book settings).compatible t₁.kind .number = true := by
    rw [hkind₁]
    exact compatible_of_isAssignable (by decide)
  unfold Book.literal?
  rw [hts]
  simp [hread₀, hread₁, hcompatible, hinstance, guard]
  rfl

theorem literal?_link (n : Numeral) (u : Text) :
    (book settings).literal? (n.digits ++ ' ' :: u) .number = none := by
  have hread : ∀ t ∈ (book settings).types.types,
      Book.literalValue? t (n.digits ++ ' ' :: u) = none := by
    intro t ht
    have hmem : (t.kind, t.parse?) ∈ (book settings).types.types.map fun t => (t.kind, t.parse?) :=
      List.mem_map_of_mem ht
    rw [readers_book] at hmem
    unfold Book.literalValue? ValueType.parses ValueType.parse
    simp only [List.mem_cons, Prod.mk.injEq, List.not_mem_nil, or_false] at hmem
    rcases hmem with ⟨hkind, hparse⟩ | ⟨hkind, hparse⟩ | ⟨hkind, hparse⟩ | ⟨hkind, hparse⟩ |
      ⟨hkind, hparse⟩ | ⟨hkind, hparse⟩ <;> rw [hkind, hparse]
    · rfl
    · simp [number?, integer?_link, decimal?_link]
    · simp [integer?_link]
    · simp [decimal?_link]
    · simp [unquoted?_link]
    · simp [boolean?_link]
  unfold Book.literal?
  rw [List.findSome?_eq_none_iff]
  intro t ht
  rw [hread t ht]
  simp

/-! ## Whole chains -/

/-- One value that stands in no parentheses is read as a literal, or by a phrase if no attempt under way
works on the text. -/
theorem step_single (b : Book) (resolve : Resolver) {text : Text} {expected : SlotType}
    (htrim : Text.trim text = text) (hne : text ≠ []) (hunwrap : Text.unwrap? text = none)
    (hsingle : expected.single = true) (enclosing : List Frame) :
    b.step resolve text expected .both enclosing =
      (ofOption (b.literal? text (b.classOf expected)) <|> failure <|>
        if isUnderWay text enclosing = true then failure
        else b.byPhrase resolve text expected enclosing) := by
  unfold Book.step
  dsimp only
  rw [htrim, if_neg hne, hunwrap, hsingle]
  rfl

theorem step_chain (resolve : Resolver) (c : Chain) (enclosing : List Frame) :
    (book settings).step resolve c.text number .both enclosing =
      (ofOption ((book settings).literal? c.text .number) <|> failure <|>
        if isUnderWay c.text enclosing = true then failure
        else (book settings).byPhrase resolve c.text number enclosing) := by
  have hunwrap : Text.unwrap? c.text = none := by
    obtain ⟨d, t, hd, hdigit⟩ := c.exists_first
    rw [hd]
    unfold Text.unwrap?
    split
    · rename_i heq
      cases heq
      exact absurd hdigit (by decide)
    · rfl
  rw [step_single (book settings) resolve c.trim_self c.text_ne_nil hunwrap rfl, classOf_number]

theorem step_numeral {n : Numeral} {k : Int} (h : fit n.value = some k) (resolve : Resolver)
    (enclosing : List Frame) :
    Yields (ComesTo k)
      ((book settings).step resolve (Chain.numeral n).text number .both enclosing) := by
  obtain ⟨e, he, hk⟩ := literal?_numeral h
  rw [step_chain]
  exact Yields.orElse_left (.ofOption he hk) _

theorem literal?_of_cut {c l r : Chain} {op : Operator} (hcut : c.cut? = some (op, l, r)) :
    (book settings).literal? c.text .number = none := by
  cases c with
  | numeral n =>
    have h := (Chain.cut?_eq_some hcut).2.1
    simp [Chain.operators] at h
  | link n o rest => exact literal?_link n _

theorem step_cut [RegexEngine.Lawful] {resolve : Resolver} (hr : resolve.Faultless) {P Q : Expression → Prop}
    {enclosing : List Frame} {c l r : Chain} {op : Operator} (hcut : c.cut? = some (op, l, r))
    (hway : isUnderWay c.text enclosing = false)
    (hleft : YieldsWithin P resolve enclosing c l) (hright : YieldsWithin Q resolve enclosing c r) :
    Yields (fun e => ∃ left right, P left ∧ Q right ∧ e = arithmetic left op right)
      ((book settings).step resolve c.text number .both enclosing) := by
  rw [step_chain, if_neg (by simp [hway])]
  refine (Misses.ofOption (literal?_of_cut hcut)).orElse_yields ?_
  exact Misses.failure.orElse_yields (byPhrase_arithmetic hr hcut hleft hright)

theorem resolver_chain [RegexEngine.Lawful] {c : Chain} {k : Int} (h : c.reckon = some k) (n : Nat)
    (hn : c.operators.length < n) (enclosing : List Frame)
    (hwider : ∀ f ∈ enclosing, c.text.width < (Text.trim f.source).width) :
    Yields (ComesTo k)
      ((book settings).resolverFrom (fun _ _ _ _ => failure) n c.text number .both enclosing) := by
  fun_induction Chain.reckon generalizing k n enclosing with
  | case1 c hcut =>
    obtain ⟨n, rfl⟩ := Nat.exists_eq_add_one_of_ne_zero (Nat.ne_zero_of_lt hn)
    rw [Chain.cut?_eq_none hcut]
    exact step_numeral h _ enclosing
  | case2 c op l r hcut hlength ihl ihr =>
    obtain ⟨n, rfl⟩ := Nat.exists_eq_add_one_of_ne_zero (Nat.ne_zero_of_lt hn)
    obtain ⟨a, ha, h⟩ := Option.bind_eq_some_iff.1 h
    obtain ⟨b, hb, h⟩ := Option.bind_eq_some_iff.1 h
    obtain ⟨m, hexact, hfit⟩ := Option.bind_eq_some_iff.1 h
    have hwidth := width_sides hcut
    -- both sides are narrower than the chain, and so than all that is around it
    have hinner {t : Text} (ht : t.width < c.text.width) {f : Frame} (hf : f.source = c.text) :
        ∀ g ∈ f :: enclosing, t.width < (Text.trim g.source).width := by
      intro g hg
      rcases List.mem_cons.1 hg with rfl | hg
      · rwa [hf, c.trim_self]
      · exact ht.trans (hwider g hg)
    refine (step_cut (Book.resolverFrom_faultless (fun _ _ _ _ => .failure) n) hcut
      (isUnderWay_of_wider hwider)
      (fun f hf => ihl ha n (by omega) _ (hinner (by omega) hf))
      (fun f hf => ihr hb n (by omega) _ (hinner (by omega) hf))).mono ?_
    rintro e ⟨left, right, hleft, hright, rfl⟩
    exact comesTo_arithmetic hleft hright hexact hfit

/-- What is found in every session if nothing deeper than the bound is found at all. -/
theorem resolveAs_yields [RegexEngine.Lawful] {b : Book} {text : Text} {name : String} {expected : SlotType}
    {P : Expression → Prop} (hname : b.types.slotType? name = some expected)
    (h : Yields P (b.resolverFrom (fun _ _ _ _ => failure) (Book.nestingBound text) text expected
      .both [])) :
    Yields P (b.resolveAs text name) := by
  unfold Book.resolveAs
  rw [hname]
  dsimp only
  rw [← (Book.resolve_wellNested text expected).settled (fun _ _ _ _ => failure) _ le_rfl]
  exact h.orElse_left _

/-- A chain is understood in every session, whatever was of use before, as an expression with one value:
the integer that the chain comes to. -/
theorem resolveAs_chain [RegexEngine.Lawful] (settings : Settings) (c : Chain) (k : Int)
    (h : c.reckon = some k) (s : Session) :
    ∃ e s' m, (book settings).resolveAs c.text "number" s = (.found e, s') ∧
      e.values = [.integer m] ∧ m.toInt = k := by
  have hdepth : c.operators.length < Book.nestingBound c.text := by
    have := c.length_operators_le
    unfold Book.nestingBound
    omega
  obtain ⟨e, he, m, hm, hvalues⟩ :=
    resolveAs_yields slotType?_number (resolver_chain h _ hdepth [] (by simp)) s
  rcases hrun : (book settings).resolveAs c.text "number" s with ⟨o, s'⟩
  rw [hrun] at he
  cases he
  exact ⟨e, s', m, rfl, hvalues, hm⟩

end

/-- All three kinds of operators, and zeros in front of a numeral. -/
def mixed : Chain :=
  .link ⟨['1'], by decide, by decide⟩ .subtract <| .link ⟨['2'], by decide, by decide⟩ .subtract <|
    .link ⟨['3'], by decide, by decide⟩ .multiply <| .link ⟨['4'], by decide, by decide⟩ .add <|
    .numeral ⟨['0', '0', '7'], by decide, by decide⟩

/-- The second minus takes the product only, and the first one all in front of the plus. -/
theorem resolveAs_chain_mixed :
    (mixed.text = "1 - 2 - 3 * 4 + 007".toList ∧ mixed.reckon = some 18) ∧
      ∃ e s' m, (book {}).resolveAs mixed.text "number" (book {}).fresh = (.found e, s') ∧
        e.values = [.integer m] ∧ m.toInt = 18 := by
  have h : mixed.reckon = some 18 := by decide +kernel
  exact ⟨⟨by decide, h⟩, resolveAs_chain {} mixed 18 h (book {}).fresh⟩

end Phrasebook.Standard
