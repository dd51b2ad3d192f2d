import Phrasebook.Proofs.Pattern.Accepts
import Phrasebook.Proofs.Pattern.Groups
import Mathlib.Data.List.Chain

/-!
The trees that reading gives. Whatever the text is, its tree is canonical: sequences are flat and have
no literals to join, choices have branches, and slots have types that their names in the text stand
for. The printing of patterns, and the search for the end of a slot, rely on it.
-/

namespace Phrasebook.Pattern

theorem toInt_ofNat_of_le {n : Nat} (h : n ≤ maxMark) : (Int32.ofNat n).toInt = n :=
  Int32.toInt_ofNat_of_lt (by simp only [maxMark, Nat.pow_eq] at h; omega)

section

variable [RegexEngine] {types : TypeNames} {read : Reader}

/-- A tree as reading makes it of a text in which the names of its types stand. -/
inductive Canonical (types : TypeNames) (t : Text) : Pattern → Prop
  | literal (s : Text) : Canonical types t (literal s)
  | sequence {ps : List Pattern} (long : 2 ≤ ps.length) (flat : ∀ p ∈ ps, p.isPart = true)
      (apart : ps.IsChain fun p q => ¬ (p.isLiteral = true ∧ q.isLiteral = true))
      (all : ∀ p ∈ ps, Canonical types t p) : Canonical types t (sequence ps)
  | optional {p : Pattern} (inner : Canonical types t p) : Canonical types t (optional p)
  | choice {bs : List (Int32 × Pattern)} (some : bs ≠ [])
      (marks : ∀ b ∈ bs, 0 ≤ b.1.toInt ∧ b.1.toInt ≤ maxMark)
      (all : ∀ b ∈ bs, Canonical types t b.2) : Canonical types t (choice bs)
  | regex {g : RegexPart} (compiles : RegexPart.ofSource g.source = .ok g)
      (angle : Text.Balanced '<' '>' g.source) : Canonical types t (regex g)
  | slot {ts : List SlotType} {accepts : Acceptance} {nullable : Bool} (some : ts ≠ [])
      (named : ∀ u ∈ ts, ∃ name, name <:+: t ∧ Names types name u) :
      Canonical types t (slot ts accepts nullable)

theorem Canonical.mono {s t : Text} {p : Pattern} (hst : s <:+: t) (h : Canonical types s p) :
    Canonical types t p := by
  induction h with
  | literal u => exact .literal u
  | sequence long flat apart _ ih => exact .sequence long flat apart ih
  | optional _ ih => exact .optional ih
  | choice some marks _ ih => exact .choice some marks ih
  | regex compiles angle => exact .regex compiles angle
  | slot some named =>
    refine .slot some fun u hu => ?_
    obtain ⟨name, hname, hnames⟩ := named u hu
    exact ⟨name, hname.trans hst, hnames⟩

/-! ## Pieces -/

theorem SlotText.canonical {spec : Text} {p : Pattern} (h : SlotText types spec p) :
    Canonical types spec p := by
  cases h with
  | @names names ts some named nullable accepts =>
    refine .slot (fun hts => ?_) fun u hu => ?_
    · rw [hts] at named
      cases named
      exact some rfl
    · obtain ⟨name, hmem, hname⟩ := exists_left_of_forall₂ named hu
      exact ⟨name, (Text.infix_join hmem).trans (List.suffix_append _ _).isInfix, hname⟩

/-- What is read for texts inside brackets is canonical. -/
def ReadsCanonical (types : TypeNames) (read : Reader) : Prop :=
  ∀ base s p, read base s = .ok p → Canonical types s p

section

variable (hread : ReadsCanonical types read)

include hread

theorem canonical_of_branch {i : Nat} {t : Text} {b : Int32 × Pattern}
    (h : branch read i t = .ok b) :
    (0 ≤ b.1.toInt ∧ b.1.toInt ≤ maxMark) ∧ Canonical types t b.2 := by
  unfold branch at h
  obtain ⟨found, hmark, h⟩ := ok_of_bind h
  cases found with
  | none =>
    obtain ⟨p, hp, h⟩ := ok_of_bind h
    cases h
    have hzero : 0 ≤ (0 : Int32).toInt ∧ (0 : Int32).toInt ≤ maxMark := by decide
    exact ⟨hzero, hread _ t p hp⟩
  | some found =>
    obtain ⟨m, rest⟩ := found
    obtain ⟨p, hp, h⟩ := ok_of_bind h
    cases h
    obtain ⟨digits, -, -, hle, rfl, rfl⟩ := mark?_eq_ok_some_iff.1 hmark
    have hrest : rest <:+: digits ++ markSign :: rest :=
      ((List.suffix_cons _ _).trans (List.suffix_append _ _)).isInfix
    refine ⟨?_, (hread _ rest p hp).mono hrest⟩
    rw [toInt_ofNat_of_le hle]
    omega

theorem canonical_of_branches {base : Nat} {t : Text} {p : Pattern}
    (h : branches read base t.splitBars = .ok p) : Canonical types t p := by
  unfold branches at h
  obtain ⟨bs, hbs, h⟩ := ok_of_bind h
  cases h
  have hbs := forall₂_of_mapM hbs
  have hall : ∀ b ∈ bs, (0 ≤ b.1.toInt ∧ b.1.toInt ≤ maxMark) ∧ Canonical types t b.2 := by
    intro b hb
    obtain ⟨⟨j, part⟩, hpart, hb⟩ := exists_left_of_forall₂ hbs hb
    obtain ⟨a, c, ht, -, -⟩ := Text.exists_of_mem_splitBars hpart
    obtain ⟨hmark, hcanonical⟩ := canonical_of_branch hread hb
    exact ⟨hmark, hcanonical.mono ⟨a, c, ht.symm⟩⟩
  refine .choice ?_ (fun b hb => (hall b hb).1) fun b hb => (hall b hb).2
  rintro rfl
  have hlength := hbs.length_eq
  rw [Text.length_splitBars] at hlength
  exact Text.barParts_ne_nil 0 t (List.eq_nil_of_length_eq_zero hlength)

theorem canonical_of_optionalInside {base : Nat} {t : Text} {p : Pattern}
    (h : optionalInside read base t = .ok p) : Canonical types t p := by
  by_cases hlength : t.splitBars.length = 1
  · rw [optionalInside_eq_branch hlength] at h
    cases hb : branch read base t with
    | error e =>
      rw [hb] at h
      cases h
    | ok b =>
      obtain ⟨hmark, hcanonical⟩ := canonical_of_branch hread hb
      rw [hb] at h
      obtain rfl := Except.ok.inj h
      split
      · exact .choice (by simp) (by simpa using hmark) (by simpa using hcanonical)
      · exact hcanonical
  · rw [optionalInside, if_neg hlength] at h
    exact hread _ t p h

theorem Piece.canonical {i : Nat} {t : Text} {p : Pattern} (h : Piece types read i t p) :
    Canonical types t p := by
  have hinside (opener closer : Char) (inside : Text) :
      inside <:+: opener :: inside ++ [closer] := ⟨[opener], [closer], rfl⟩
  cases h with
  | optional back inner =>
    exact .optional ((canonical_of_optionalInside hread inner).mono (hinside _ _ _))
  | choice back inner => exact (canonical_of_branches hread inner).mono (hinside _ _ _)
  | @regex g back => exact .regex (ofSource_source g) (Text.takesBack_zero.1 back).2
  | slot slot => exact slot.canonical.mono (hinside _ _ _)

/-! ## Parts -/

theorem canonical_of_parts {fuel i : Nat} {plain t : Text} {ps : List Pattern}
    (h : parts types read fuel i plain t = .ok ps) : ∀ p ∈ ps, Canonical types t p := by
  have hflush {plain t : Text} {ps : List Pattern} (hps : ∀ p ∈ ps, Canonical types t p) :
      ∀ p ∈ flush plain ps, Canonical types t p := by
    intro p hp
    unfold flush at hp
    split at hp
    · exact hps p hp
    · rcases List.mem_cons.1 hp with rfl | hp
      · exact .literal _
      · exact hps p hp
  induction fuel generalizing i plain t ps with
  | zero =>
    cases h
    exact hflush (by simp)
  | succ fuel ih =>
    cases taken_of_parts h with
    | nil => exact hflush (by simp)
    | @piece front rest q qs piece more =>
      refine hflush fun p hp => ?_
      rcases List.mem_cons.1 hp with rfl | hp
      · exact (piece.canonical hread).mono (List.prefix_append _ _).isInfix
      · exact (ih more p hp).mono (List.suffix_append _ _).isInfix
    | escape more =>
      exact fun p hp => (ih more p hp).mono
        ((List.suffix_cons _ _).trans (List.suffix_cons _ _)).isInfix
    | plain hc more => exact fun p hp => (ih more p hp).mono (List.suffix_cons _ _).isInfix

end

/-- Between two literals stands a piece. -/
theorem isChain_of_parts {fuel i : Nat} {plain t : Text} {ps : List Pattern}
    (h : parts types read fuel i plain t = .ok ps) :
    ps.IsChain fun p q => ¬ (p.isLiteral = true ∧ q.isLiteral = true) := by
  have hcons {q : Pattern} {qs : List Pattern} (hq : q.isLiteral = false)
      (hqs : qs.IsChain fun p q => ¬ (p.isLiteral = true ∧ q.isLiteral = true)) :
      (q :: qs).IsChain fun p q => ¬ (p.isLiteral = true ∧ q.isLiteral = true) :=
    hqs.cons fun p _ => by simp [hq]
  induction fuel generalizing i plain t ps with
  | zero =>
    cases h
    unfold flush
    split <;> simp
  | succ fuel ih =>
    cases taken_of_parts h with
    | nil =>
      unfold flush
      split <;> simp
    | piece piece more =>
      have hq := piece.isLiteral
      unfold flush
      split
      · exact hcons hq (ih more)
      · exact List.isChain_cons_cons.2 ⟨by simp [hq], hcons hq (ih more)⟩
    | escape more => exact ih more
    | plain hc more => exact ih more

theorem canonical_ofParts {t : Text} {ps : List Pattern} (flat : ∀ p ∈ ps, p.isPart = true)
    (apart : ps.IsChain fun p q => ¬ (p.isLiteral = true ∧ q.isLiteral = true))
    (all : ∀ p ∈ ps, Canonical types t p) : Canonical types t (ofParts ps) := by
  match ps with
  | [] => exact .literal []
  | [p] => exact all p (by simp)
  | p :: q :: ps => exact .sequence (by simp) flat apart all

theorem readsCanonical_readWithin (types : TypeNames) (n : Nat) :
    ReadsCanonical types (readWithin types n) := by
  induction n with
  | zero =>
    intro base s p h
    cases h
    exact .literal []
  | succ n ih =>
    intro base s p h
    rw [readWithin] at h
    split at h
    · exact canonical_of_branches ih h
    · obtain ⟨ps, hps, h⟩ := ok_of_bind h
      cases h
      exact canonical_ofParts (isPart_of_parts hps) (isChain_of_parts hps) (canonical_of_parts ih hps)

/-- Whatever text is read, its tree is canonical. -/
theorem ofText_canonical (types : TypeNames) (t : Text) (p : Pattern) (h : ofText types t = .ok p) :
    Canonical types t p :=
  readsCanonical_readWithin types _ 0 t p h

end

/-- Plain text around escapes, a marked slot in square brackets, and an empty branch. -/
def brokenText : Text :=
  ['a', '\\', '|', '\\', '[', '[', '3', markSign, '%', 'n', '%', ']', '|']

def brokenTree : Pattern :=
  choice [(0, sequence [literal ['a', '|', '['],
    optional (choice [(3, slot [⟨⟨1⟩, "n", true⟩] .both false)])]), (0, literal [])]

theorem ofText_canonical_broken :
    ofText shortName brokenText = .ok brokenTree ∧ Canonical shortName brokenText brokenTree := by
  have hread : ofText shortName brokenText = .ok brokenTree := by rfl
  exact ⟨hread, ofText_canonical shortName brokenText brokenTree hread⟩

end Phrasebook.Pattern
