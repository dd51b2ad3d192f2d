import Phrasebook.Pattern.Printing
import Phrasebook.Pattern.Reading
import Phrasebook.Proofs.Text.Balanced

/-!
The patterns that reading can produce, and what their texts look like from outside: brackets close,
no bar is an outer one, and no digits at the beginning are followed by the mark sign, since a sign
in literal text is written with a backslash.
-/

namespace Phrasebook.Pattern

/-- A source of a regular expression that a pattern can quote: it does not end within an escape, and
the brackets of each kind are balanced. -/
structure Quotable (source : Text) : Prop where
  escapes : Text.escapesEnd source = true
  angle : Text.Balanced '<' '>' source
  round : Text.Balanced '(' ')' source
  square : Text.Balanced '[' ']' source

/-- A type under a name that can be written in a slot and means that type. -/
structure Nameable (types : TypeNames) (t : SlotType) : Prop where
  nonempty : t.name.toList ≠ []
  word : t.name.toList.all Text.isWord = true
  known : types t.name = some t

theorem Nameable.isWord_of_mem {types : TypeNames} {t : SlotType} (h : Nameable types t) {c : Char}
    (hc : c ∈ t.name.toList) : Text.isWord c = true :=
  List.all_eq_true.1 h.word c hc

/-! ## Characters -/

theorem isScanned_of_isSpecial {c : Char} (h : isSpecial c = false) : Text.isScanned c = false := by
  simp only [isSpecial, Bool.or_eq_false_iff, beq_eq_false_iff_ne] at h
  simp [Text.isScanned, Text.depthChange, h]

theorem isDigit_of_isSpecial {c : Char} (h : isSpecial c = true) : Text.isDigit c = false := by
  simp only [isSpecial, Bool.or_eq_true, beq_iff_eq] at h
  rcases h with ((((((((rfl | rfl) | rfl) | rfl) | rfl) | rfl) | rfl) | rfl) | rfl) | rfl <;> decide

theorem not_isSpecial_of_isWord {c : Char} (h : Text.isWord c = true) : isSpecial c = false := by
  by_contra hs
  simp only [isSpecial, Bool.not_eq_false, Bool.or_eq_true, beq_iff_eq] at hs
  rcases hs with ((((((((rfl | rfl) | rfl) | rfl) | rfl) | rfl) | rfl) | rfl) | rfl) | rfl <;>
    revert h <;> decide

theorem isDigit_of_ascii {c : Char} (h : c.isDigit = true) : Text.isDigit c = true := by
  simp only [Char.isDigit, Bool.and_eq_true, decide_eq_true_eq] at h
  have hlo : 48 ≤ c.toNat := h.1
  have hhi : c.toNat ≤ 57 := h.2
  simp [Text.isDigit, Text.Table.decimalDigit, Text.inRanges, hhi]
  omega

/-! ## Sealed texts -/

open Text (Sealed)

theorem sealed_escaped (t : Text) : Sealed 0 (escaped t) := by
  induction t with
  | nil => exact Sealed.nil
  | cons c t ih =>
    rw [escaped]
    split
    · exact (Sealed.escape c).append ih
    · rename_i hc
      exact (Sealed.plain (isScanned_of_isSpecial (by simpa using hc))).append ih

theorem isDigit_toDigits {n : Nat} {c : Char} (h : c ∈ Nat.toDigits 10 n) :
    Text.isDigit c = true :=
  isDigit_of_ascii (Nat.isDigit_of_mem_toDigits (by decide) (by decide) h)

theorem sealed_digits (n : Nat) : Sealed 0 (Nat.toDigits 10 n ++ [markSign]) := by
  refine Sealed.append (Sealed.of_plain fun c hc => isScanned_of_isSpecial ?_)
    (Sealed.plain (by decide))
  by_contra hs
  have := isDigit_of_isSpecial (by simpa using hs)
  rw [isDigit_toDigits hc] at this
  cases this

theorem sealed_markText (m : Int32) : Sealed 0 (markText m) := by
  rw [markText]
  split
  · exact Sealed.nil
  · split
    · exact (Sealed.plain (c := '-') (by decide)).append (sealed_digits _)
    · exact sealed_digits _

theorem sealed_names {types : TypeNames} {ts : List SlotType} (h : ∀ t ∈ ts, Nameable types t) :
    Sealed 0 (Text.join ['/'] (ts.map (·.name.toList))) := by
  have hname (t : SlotType) (ht : t ∈ ts) : Sealed 0 t.name.toList :=
    Sealed.of_plain fun c hc =>
      isScanned_of_isSpecial (not_isSpecial_of_isWord ((h t ht).isWord_of_mem hc))
  clear h
  induction ts with
  | nil => exact Sealed.nil
  | cons t ts ih =>
    have ht := hname t (by simp)
    have ih := ih fun u hu => hname u (by simp [hu])
    cases ts with
    | nil => simpa [Text.join] using ht
    | cons u us => exact (ht.append (Sealed.plain (by decide))).append ih

theorem sealed_slotText {types : TypeNames} {ts : List SlotType} (h : ∀ t ∈ ts, Nameable types t)
    (accepts : Acceptance) (nullable : Bool) : Sealed 0 (slotText ts accepts nullable) := by
  have hsign : Sealed 0 (acceptanceText accepts) := by
    cases accepts
    · exact Sealed.nil
    · exact Sealed.plain (by decide)
    · exact Sealed.plain (by decide)
  have hnull : Sealed 0 (if nullable then ['-'] else []) := by
    cases nullable
    · exact Sealed.nil
    · exact Sealed.plain (by decide)
  have hpercent : Sealed 0 ['%'] := Sealed.plain (by decide)
  exact ((hpercent.append (hnull.append hsign)).append (sealed_names h)).append hpercent

theorem sealed_of_quotable {source : Text} (h : Quotable source) : Sealed 1 source :=
  Sealed.of_balanced h.escapes fun pair hp => by
    simp only [Text.bracketPairs, List.mem_cons, List.not_mem_nil, or_false] at hp
    rcases hp with rfl | rfl | rfl
    · exact h.round
    · exact h.square
    · exact h.angle

/-! ## Marks -/

/-- The digits at the beginning, if there are any, are not followed by the mark sign. -/
def Unmarked (t : Text) : Prop := (t.dropWhile Text.isDigit).head? ≠ some markSign

theorem drop_length_takeWhile (f : Char → Bool) (t : Text) :
    t.drop (t.takeWhile f).length = t.dropWhile f := by
  induction t with
  | nil => rfl
  | cons c t ih => by_cases hc : f c = true <;> simp [hc, ih]

theorem mark?_of_unmarked {t : Text} (h : Unmarked t) (i : Nat) : mark? i t = .ok none := by
  rw [Unmarked] at h
  rw [mark?, drop_length_takeWhile]
  cases hd : t.dropWhile Text.isDigit with
  | nil => split <;> simp_all
  | cons c rest =>
    rw [hd] at h
    split
    · rename_i heq
      cases heq
      have hc : ¬ c = markSign := by simpa using h
      rw [if_neg hc]
    · rfl

theorem unmarked_cons {c : Char} (hd : Text.isDigit c = false) (hc : c ≠ markSign) (t : Text) :
    Unmarked (c :: t) := by
  simpa [Unmarked, hd] using hc

theorem unmarked_escaped_append (t : Text) {rest : Text} (h : Unmarked rest) :
    Unmarked (escaped t ++ rest) := by
  induction t with
  | nil => exact h
  | cons c t ih =>
    rw [escaped]
    split
    · exact unmarked_cons (by decide) (by decide) _
    · rename_i hs
      by_cases hd : Text.isDigit c = true
      · simpa [Unmarked, hd] using ih
      · refine unmarked_cons (by simpa using hd) ?_ _
        rintro rfl
        exact hs (by decide)

theorem unmarked_nil : Unmarked [] := by simp [Unmarked]

theorem decimalValue?_eq {digits : Text} (h : ∀ c ∈ digits, c.isDigit = true) :
    decimalValue? digits = some (Nat.ofDigitChars 10 digits 0) := by
  have hfold (n : Nat) :
      digits.foldlM (fun n c => if c.isDigit then some (10 * n + (c.toNat - '0'.toNat)) else none) n
        = some (Nat.ofDigitChars 10 digits n) := by
    induction digits generalizing n with
    | nil => rfl
    | cons c t ih =>
      have hc := h c (by simp)
      simp only [List.foldlM_cons, hc, if_true, Option.bind_eq_bind, Option.bind_some]
      rw [ih fun e he => h e (by simp [he])]
      rfl
  exact hfold 0

theorem markText_of_pos {m : Int32} (h0 : 0 ≤ m) (hm : m ≠ 0) :
    ∃ n, n ≤ maxMark ∧ Int32.ofNat n = m ∧ markText m = Nat.toDigits 10 n ++ [markSign] := by
  refine ⟨m.toNatClampNeg, ?_, Int32.ofNat_toNatClampNeg m h0, ?_⟩
  · have := m.toNatClampNeg_lt
    simp only [maxMark, Nat.pow_eq]
    omega
  · have : ¬ m < 0 := by simpa using h0
    simp [markText, hm, this]

/-! ## Patterns -/

variable [RegexEngine]

def isLiteral : Pattern → Bool
  | literal _ => true
  | _ => false

/-- Whether the pattern may stand in a sequence, which is flat and has no empty text. -/
def isPart : Pattern → Bool
  | literal t => !t.isEmpty
  | sequence _ => false
  | _ => true

theorem eq_literal_of_isLiteral {p : Pattern} (h : p.isLiteral = true) : ∃ t, p = .literal t := by
  cases p with
  | literal t => exact ⟨t, rfl⟩
  | _ => cases h

/-- A part in brackets or percent signs is printed as something. -/
theorem length_toText_pos {p : Pattern} (hp : p.isPart = true) (hl : p.isLiteral = false) :
    0 < (toText p).length := by
  cases p with
  | literal t => cases hl
  | sequence ps => cases hp
  | _ => simp [toText, slotText]

inductive WellFormed (types : TypeNames) : Pattern → Prop
  | literal (t : Text) : WellFormed types (literal t)
  | sequence {ps : List Pattern} (long : 2 ≤ ps.length) (parts : ∀ p ∈ ps, p.isPart = true)
      (apart : ps.IsChain fun p q => ¬ (p.isLiteral = true ∧ q.isLiteral = true))
      (all : ∀ p ∈ ps, WellFormed types p) : WellFormed types (sequence ps)
  | optional {p : Pattern} (inner : WellFormed types p) : WellFormed types (optional p)
  | choice {bs : List (Int32 × Pattern)} (some : bs ≠ []) (marks : ∀ b ∈ bs, 0 ≤ b.1)
      (all : ∀ b ∈ bs, WellFormed types b.2) : WellFormed types (choice bs)
  | regex {g : RegexPart} (quotable : Quotable g.source) : WellFormed types (regex g)
  | slot {ts : List SlotType} {accepts : Acceptance} {nullable : Bool} (some : ts ≠ [])
      (named : ∀ t ∈ ts, Nameable types t) : WellFormed types (slot ts accepts nullable)

/-! ## Their texts -/

theorem sealed_toTextAll {ps : List Pattern} (h : ∀ p ∈ ps, Sealed 0 (toText p)) :
    Sealed 0 (toTextAll ps) := by
  induction ps with
  | nil => exact Sealed.nil
  | cons p ps ih => exact (h p (by simp)).append (ih fun q hq => h q (by simp [hq]))

theorem length_le_toTextAll {ps : List Pattern} {p : Pattern} (h : p ∈ ps) :
    (toText p).length ≤ (toTextAll ps).length := by
  induction ps with
  | nil => cases h
  | cons q ps ih =>
    rw [toTextAll, List.length_append]
    rcases List.mem_cons.1 h with rfl | h
    · omega
    · have := ih h
      omega

theorem length_le_toTextBranches {bs : List (Int32 × Pattern)} {b : Int32 × Pattern}
    (h : b ∈ bs) : (toText b.2).length ≤ (toTextBranches bs).length := by
  induction bs with
  | nil => cases h
  | cons c cs ih =>
    rcases List.mem_cons.1 h with rfl | h
    · cases cs <;> simp only [toTextBranches, List.append_assoc, List.length_append] <;> omega
    · cases cs with
      | nil => cases h
      | cons d ds =>
        have := ih h
        simp only [toTextBranches, List.append_assoc, List.length_append, List.length_cons]
        omega

theorem sealed_toTextBranches {bs : List (Int32 × Pattern)} (h : ∀ b ∈ bs, Sealed 0 (toText b.2)) :
    Sealed 1 (toTextBranches bs) := by
  induction bs with
  | nil => exact Sealed.nil
  | cons b bs ih =>
    have hb : Sealed 1 (markText b.1 ++ toText b.2) :=
      ((sealed_markText b.1).append (h b (by simp))).mono (by omega)
    have ih := ih fun c hc => h c (by simp [hc])
    cases bs with
    | nil => exact hb
    | cons c cs => exact hb.append ((Sealed.bar (Int.le_refl 1)).append ih)

theorem sealed_toText {types : TypeNames} {p : Pattern} (h : WellFormed types p) :
    Sealed 0 (toText p) := by
  induction h with
  | literal t => exact sealed_escaped t
  | sequence _ _ _ _ ih => exact sealed_toTextAll ih
  | optional _ ih => exact Sealed.bracket (by simp [Text.bracketPairs]) (ih.mono (by omega))
  | choice _ _ _ ih =>
    exact Sealed.bracket (by simp [Text.bracketPairs]) (sealed_toTextBranches ih)
  | regex hq => exact Sealed.bracket (by simp [Text.bracketPairs]) (sealed_of_quotable hq)
  | slot _ named => exact sealed_slotText named _ _

theorem unmarked_part_append {p : Pattern} (hp : p.isPart = true) {rest : Text}
    (h : Unmarked rest) : Unmarked (toText p ++ rest) := by
  cases p with
  | literal t => exact unmarked_escaped_append t h
  | sequence ps => cases hp
  | optional p => exact unmarked_cons (by decide) (by decide) _
  | choice bs => exact unmarked_cons (by decide) (by decide) _
  | regex g => exact unmarked_cons (by decide) (by decide) _
  | slot ts accepts nullable => exact unmarked_cons (by decide) (by decide) _

theorem unmarked_toTextAll {ps : List Pattern} (h : ∀ p ∈ ps, p.isPart = true) :
    Unmarked (toTextAll ps) := by
  induction ps with
  | nil => exact unmarked_nil
  | cons p ps ih => exact unmarked_part_append (h p (by simp)) (ih fun q hq => h q (by simp [hq]))

theorem unmarked_toText {types : TypeNames} {p : Pattern} (h : WellFormed types p) :
    Unmarked (toText p) := by
  cases h with
  | literal t => simpa [toText] using unmarked_escaped_append t unmarked_nil
  | sequence _ parts => exact unmarked_toTextAll parts
  | optional _ => exact unmarked_cons (by decide) (by decide) _
  | choice _ _ _ => exact unmarked_cons (by decide) (by decide) _
  | regex _ => exact unmarked_cons (by decide) (by decide) _
  | slot _ _ => exact unmarked_cons (by decide) (by decide) _

end Phrasebook.Pattern
