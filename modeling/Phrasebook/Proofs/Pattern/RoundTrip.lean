import Phrasebook.Proofs.Pattern.Pieces
import Phrasebook.Regex.Threads

/-!
Reading the text of a well-formed pattern gives the pattern back. The reader meets the brackets of
the text where the printer wrote them, since what stands inside is sealed; the induction is on the
depth of nesting that the reader is allowed.
-/

namespace Phrasebook.Pattern

section

variable {types : TypeNames}

/-! ## Slots, plain text and marks -/

/-- What stands between the percent signs of a slot. -/
def slotSpec (ts : List SlotType) (accepts : Acceptance) (nullable : Bool) : Text :=
  (if nullable then ['-'] else []) ++ acceptanceText accepts ++
    Text.join ['/'] (ts.map (·.name.toList))

theorem slotText_eq (ts : List SlotType) (accepts : Acceptance) (nullable : Bool) :
    slotText ts accepts nullable = '%' :: slotSpec ts accepts nullable ++ ['%'] := by
  simp [slotText, slotSpec]

theorem Nameable.names {t : SlotType} (h : Nameable types t) : Names types t.name.toList t :=
  ⟨h.nonempty, fun _ => h.isWord_of_mem, by rw [String.ofList_toList, h.known]⟩

theorem isPlain_of_not_isSpecial {c : Char} (h : isSpecial c = false) : isPlain c = true := by
  simp only [isSpecial, Bool.or_eq_false_iff, beq_eq_false_iff_ne] at h
  simp [isPlain, h]

theorem run_escaped (t : Text) : Run (escaped t) t := by
  induction t with
  | nil => exact .nil
  | cons c t ih =>
    rw [escaped]
    split
    · exact .escape c ih
    · rename_i hc
      exact .plain (isPlain_of_not_isSpecial (by simpa using hc)) ih

theorem mark?_digits {n : Nat} (hn : n ≤ maxMark) (i : Nat) (rest : Text) :
    mark? i (Nat.toDigits 10 n ++ markSign :: rest) = .ok (some (Int32.ofNat n, rest)) := by
  have hvalue : Nat.ofDigitChars 10 (Nat.toDigits 10 n) 0 = n := Nat.ofDigitChars_ten_toDigits
  exact mark?_eq_ok_some_iff.2 ⟨Nat.toDigits 10 n, Nat.toDigits_ne_nil,
    fun c hc => Nat.isDigit_of_mem_toDigits (by decide) (by decide) hc, by rwa [hvalue], rfl,
    by rw [hvalue]⟩

variable [RegexEngine] {read : Reader}

theorem slotText_slotSpec {ts : List SlotType} (hne : ts ≠ []) (h : ∀ t ∈ ts, Nameable types t)
    (accepts : Acceptance) (nullable : Bool) :
    SlotText types (slotSpec ts accepts nullable) (.slot ts accepts nullable) := by
  refine .names (by simpa using hne) ?_ nullable accepts
  rw [List.forall₂_map_left_iff, List.forall₂_same]
  exact fun t ht => (h t ht).names

/-! ## Parts and branches

`read` is a reader that is known to read back the texts inside brackets, up to a length. -/

section

variable {n : Nat}
  (hread : ∀ p, WellFormed types p → (toText p).length < n → ∀ base, read base (toText p) = .ok p)

include hread

theorem branch_markText {m : Int32} {p : Pattern} (hm : 0 ≤ m) (h : WellFormed types p)
    (hn : (toText p).length < n) (i : Nat) :
    branch read i (markText m ++ toText p) = .ok (m, p) := by
  by_cases h0 : m = 0
  · subst h0
    have hmark : markText 0 = [] := rfl
    rw [hmark, List.nil_append, branch, mark?_of_unmarked (unmarked_toText h)]
    simp [bind, Except.bind, pure, Except.pure, hread p h hn]
  · obtain ⟨k, hk, rfl, hmark⟩ := markText_of_pos hm h0
    rw [hmark, List.append_assoc, List.singleton_append, branch, mark?_digits hk]
    simp [bind, Except.bind, pure, Except.pure, hread p h hn]

theorem branches_toTextBranches {bs : List (Int32 × Pattern)} (hne : bs ≠ [])
    (hm : ∀ b ∈ bs, 0 ≤ b.1) (h : ∀ b ∈ bs, WellFormed types b.2)
    (hn : (toTextBranches bs).length < n) (base : Nat) :
    branches read base (toTextBranches bs).splitBars = .ok (.choice bs) := by
  have hlength (b : Int32 × Pattern) (hb : b ∈ bs) : (toText b.2).length < n :=
    Nat.lt_of_le_of_lt (length_le_toTextBranches hb) hn
  have hparts : Text.barParts 0 (toTextBranches bs) = bs.map fun b => markText b.1 ++ toText b.2 := by
    clear hm hn hlength
    induction bs with
    | nil => exact absurd rfl hne
    | cons b bs ih =>
      have hb : Text.Sealed 0 (markText b.1 ++ toText b.2) :=
        (sealed_markText b.1).append (sealed_toText (h b (by simp)))
      cases bs with
      | nil =>
        have := hb.bars 0 (Int.le_refl 0) []
        simpa [toTextBranches, Text.prepend_first] using this
      | cons c cs =>
        have ih := ih (by simp) fun d hd => h d (by simp [hd])
        rw [toTextBranches, Text.barParts_of_sealed hb, ih]
        rfl
  have hall (start : Nat) : (Text.placed start (bs.map fun b => markText b.1 ++ toText b.2)).mapM
      (fun p => branch read (base + p.1) p.2) = .ok bs := by
    clear hne hn hparts
    induction bs generalizing start with
    | nil => rfl
    | cons b bs ih =>
      have hb := branch_markText hread (hm b (by simp)) (h b (by simp)) (hlength b (by simp))
        (base + start)
      have ih := ih (fun c hc => hm c (by simp [hc])) (fun c hc => h c (by simp [hc]))
        (fun c hc => hlength c (by simp [hc])) (start + Text.width (markText b.1 ++ toText b.2) + 1)
      simp only [List.map_cons, Text.placed, List.mapM_cons, hb, ih]
      rfl
  rw [branches, Text.splitBars, hparts, hall]
  rfl

theorem optionalInside_toText {p : Pattern} (h : WellFormed types p) (hn : (toText p).length < n)
    (base : Nat) : optionalInside read base (toText p) = .ok p := by
  rw [optionalInside, Text.splitBars_of_sealed (sealed_toText h),
    mark?_of_unmarked (unmarked_toText h)]
  simp [bind, Except.bind, hread p h hn]

/-- A part in brackets or percent signs is read as a whole. -/
theorem parts_part {p : Pattern} (h : WellFormed types p) (hp : p.isPart = true)
    (hl : p.isLiteral = false) (hn : (toText p).length ≤ n) {fuel : Nat} {rest : Text}
    {ps : List Pattern} (hrest : ∀ j, parts types read fuel j [] rest = .ok ps) (i : Nat)
    (plain : Text) :
    parts types read (fuel + 1) i plain (toText p ++ rest) = .ok (flush plain (p :: ps)) := by
  have hpiece : Piece types read i (toText p) p := by
    cases h with
    | literal t => cases hl
    | sequence _ _ _ _ => cases hp
    | @optional p h =>
      have hn : (toText p).length < n := by
        simp only [toText, List.length_append, List.length_cons] at hn
        omega
      exact .optional (takesBack_of_sealed _ _ (by simp [Text.bracketPairs]) (sealed_toText h))
        (optionalInside_toText hread h hn _)
    | @choice bs hne hm h =>
      have hn : (toTextBranches bs).length < n := by
        simp only [toText, List.length_append, List.length_cons] at hn
        omega
      exact .choice
        (takesBack_of_sealed _ _ (by simp [Text.bracketPairs])
          (sealed_toTextBranches fun b hb => sealed_toText (h b hb)))
        (branches_toTextBranches hread hne hm h hn _)
    | regex hq => exact .regex (takesBack_of_sealed _ _ (by simp [Text.bracketPairs]) (sealed_of_quotable hq))
    | slot hne named =>
      rw [toText, slotText_eq]
      exact .slot (slotText_slotSpec hne named _ _)
  exact parts_of_taken (.piece hpiece (hrest _))

theorem parts_toTextAll {ps : List Pattern} (h : ∀ p ∈ ps, WellFormed types p)
    (hp : ∀ p ∈ ps, p.isPart = true)
    (apart : ps.IsChain fun p q => ¬ (p.isLiteral = true ∧ q.isLiteral = true))
    (hn : ∀ p ∈ ps, (toText p).length ≤ n) (fuel i : Nat) (hf : (toTextAll ps).length ≤ fuel)
    (plain : Text) (hplain : plain = [] ∨ ∀ p ∈ ps.head?, p.isLiteral = false) :
    parts types read fuel i plain (toTextAll ps) = .ok (flush plain ps) := by
  induction ps generalizing fuel i plain with
  | nil => exact parts_nil fuel i plain
  | cons p ps ih =>
    have ih := ih (fun q hq => h q (by simp [hq])) (fun q hq => hp q (by simp [hq]))
      apart.of_cons (fun q hq => hn q (by simp [hq]))
    have hpart := hp p (by simp)
    rw [toTextAll] at hf ⊢
    cases hl : p.isLiteral with
    | true =>
      -- plain text is held back and comes out in front of the next part
      obtain rfl : plain = [] := hplain.resolve_right fun hhead => by
        rw [hhead p (by simp)] at hl
        cases hl
      obtain ⟨t, rfl⟩ := eq_literal_of_isLiteral hl
      obtain ⟨f, j, hr, heq⟩ :=
        @parts_run types _ read _ t (run_escaped t) fuel i [] (toTextAll ps) hf
      have hnext : ∀ q ∈ ps.head?, q.isLiteral = false := by
        intro q hq
        cases ps with
        | nil => cases hq
        | cons r rs =>
          cases hq
          have := (List.isChain_cons_cons.1 apart).1
          simpa [hl] using this
      rw [toText, heq, ih f j hr (t.reverse ++ []) (Or.inr hnext)]
      have hne : t ≠ [] := by simpa [isPart] using hpart
      simp [flush, hne]
    | false =>
      have hlength := length_toText_pos hpart hl
      obtain ⟨f, rfl⟩ : ∃ f, fuel = f + 1 := by
        simp only [List.length_append] at hf
        exact ⟨fuel - 1, by omega⟩
      have hf : (toTextAll ps).length ≤ f := by
        simp only [List.length_append] at hf
        omega
      exact parts_part hread (h p (by simp)) hpart hl (hn p (by simp))
        (fun j => ih f j hf [] (Or.inl rfl)) i plain

end

/-! ## Reading back -/

theorem ofParts_sequence {ps : List Pattern} (h : 2 ≤ ps.length) : ofParts ps = .sequence ps := by
  match ps, h with
  | _ :: _ :: _, _ => rfl

theorem readWithin_toText {p : Pattern} (h : WellFormed types p) {n : Nat}
    (hn : (toText p).length < n) (base : Nat) :
    readWithin types n base (toText p) = .ok p := by
  induction n generalizing p base with
  | zero => omega
  | succ n ih =>
    have hread (q : Pattern) (hq : WellFormed types q) (hlt : (toText q).length < n) (base : Nat) :=
      ih hq hlt base
    have hparts (ps : List Pattern) (htext : toText p = toTextAll ps)
        (hall : ∀ q ∈ ps, WellFormed types q) (hpart : ∀ q ∈ ps, q.isPart = true)
        (apart : ps.IsChain fun p q => ¬ (p.isLiteral = true ∧ q.isLiteral = true)) :
        parts types (readWithin types n) (toText p).length base [] (toText p) = .ok ps := by
      have hle (q : Pattern) (hq : q ∈ ps) : (toText q).length ≤ n := by
        have := length_le_toTextAll hq
        rw [← htext] at this
        omega
      rw [htext]
      exact parts_toTextAll hread hall hpart apart hle _ base (Nat.le_refl _) [] (Or.inl rfl)
    rw [readWithin, Text.splitBars_of_sealed (sealed_toText h)]
    cases hp : p.isPart with
    | true =>
      have := hparts [p] (by simp [toTextAll]) (by simpa using h) (by simpa using hp)
        (by simp)
      simp [this, bind, Except.bind, pure, Except.pure, ofParts]
    | false =>
      cases h with
      | literal t =>
        obtain rfl : t = [] := by simpa [isPart] using hp
        rfl
      | sequence long part apart all =>
        have := hparts _ rfl all part apart
        simp [this, bind, Except.bind, pure, Except.pure, ofParts_sequence long]
      | _ => cases hp

/-- Reading a printed pattern gives the pattern back. -/
theorem ofText_toText {p : Pattern} (h : WellFormed types p) : ofText types (toText p) = .ok p :=
  readWithin_toText h (Nat.lt_succ_self _) 0

end

/-- A source with a bracket that nothing opens and one that nothing closes, both in escapes. -/
def lopsidedSource : Text := ['(', '\\', ']', 'x', ')', '\\', '(']

def lopsided : RegexPart where
  source := lopsidedSource
  whole := (Regex.Machine.ofText? (Regex.anchored lopsidedSource)).get (by decide +kernel)
  search := (Regex.Machine.ofText? lopsidedSource).get (by decide +kernel)
  whole_eq := Regex.threads_compile_eq_ok_iff.2 (Option.some_get _).symm
  search_eq := Regex.threads_compile_eq_ok_iff.2 (Option.some_get _).symm

def numberOnly : TypeNames := fun name => if name = "number" then some ⟨⟨1⟩, "number", true⟩ else none

/-- Every kind of part, digits and signs of all sorts in literal text, and the largest mark. -/
def motley : Pattern :=
  sequence [
    literal "5¦[|%\\".toList,
    regex lopsided,
    literal "¦".toList,
    choice [
      (0, literal "7¦".toList),
      (2147483647, optional (choice [(3, slot [⟨⟨1⟩, "number", true⟩] .expressionsOnly true)])),
      (2, literal [])],
    optional (literal "12".toList)]

theorem wellFormed_motley : WellFormed numberOnly motley := by
  have hname : Nameable numberOnly ⟨⟨1⟩, "number", true⟩ :=
    ⟨by decide, by decide, by decide⟩
  have hquotable : Quotable lopsidedSource :=
    ⟨by decide, .of_inits (by decide) (by decide), .of_inits (by decide) (by decide),
      .of_inits (by decide) (by decide)⟩
  have hslot : WellFormed numberOnly (slot [⟨⟨1⟩, "number", true⟩] .expressionsOnly true) :=
    .slot (by simp) (by simpa using hname)
  have hmarked : WellFormed numberOnly
      (choice [(3, slot [⟨⟨1⟩, "number", true⟩] .expressionsOnly true)]) :=
    .choice (by simp) (by decide) (by simpa using hslot)
  refine .sequence (by decide) (by simp [isPart]) (by simp [isLiteral]) fun p hp => ?_
  simp only [List.mem_cons, List.not_mem_nil, or_false] at hp
  rcases hp with rfl | rfl | rfl | rfl | rfl
  · exact .literal _
  · exact .regex hquotable
  · exact .literal _
  · refine .choice (by simp) (by decide) fun b hb => ?_
    simp only [List.mem_cons, List.not_mem_nil, or_false] at hb
    rcases hb with rfl | rfl | rfl
    · exact .literal _
    · exact .optional hmarked
    · exact .literal _
  · exact .optional (.literal _)

theorem ofText_toText_motley :
    WellFormed numberOnly motley ∧ ofText numberOnly (toText motley) = .ok motley :=
  ⟨wellFormed_motley, ofText_toText wellFormed_motley⟩

end Phrasebook.Pattern
