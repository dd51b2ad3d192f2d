import Phrasebook.Proofs.Matching.InStep
import Phrasebook.Proofs.Text.Caseless
import Phrasebook.Resolution
import Phrasebook.Standard

/-!
Matching up to case. A pattern of literal text, options and choices takes as many characters of one text
as of another that is the same up to case, by the same branches, and so does a pattern whose literals are
the same up to case. Widths in bytes do not matter, and neither does what texts in slots would give.
-/

namespace Phrasebook

open Search

namespace Matching

variable {I : Session → Session → Prop} {s t : Text}

/-- A literal ends behind the same number of characters: the blanks in front of it, its word and the
blanks that its end may use up are all met at the same positions. -/
theorem literalEnd_abreast (hst : s.SameUpToCase t) {l m : Text} (hlm : l.SameUpToCase m) {i j : Nat}
    (h : s.Abreast t i j) : InStep I (s.Abreast t) (literalEnd l s i) (literalEnd m t j) := by
  have hstart := h.skipBlank hst
  unfold literalEnd
  simp only [hlm.trim.eq_nil_iff]
  split
  · exact .pure hstart
  · refine .bind (.ofOption_rel (hstart.occursAt? hst hlm.trim)) fun n n' hn => ?_
    obtain ⟨u, v, hu, hv, huv, hfurther⟩ := hn.after hst
    rw [hu, hv, cut_some_bind, cut_some_bind, hlm.reverse.takeWhile.length_eq]
    have hfront (k : Nat) (w : Text) : (w.takeWhile Text.isBlank).take k <+: w :=
      (List.take_prefix _ _).trans (List.takeWhile_prefix _)
    apply InStep.pure
    apply hfurther
    apply Text.Abreast.of_isPrefix (hfront _ u) (hfront _ v)
    exact (List.forall₂_take _ huv.takeWhile).length_eq

/-- Ends of matches in the one and in the other text, behind the same number of characters and with the
same mark. -/
structure EndsAbreast (s t : Text) (x y : Nat × Attempt) : Prop where
  place : s.Abreast t x.1 y.1
  left : x.2.source = s
  right : y.2.source = t
  mark : x.2.findings.mark = y.2.findings.mark

theorem EndsAbreast.start {x y : Nat × Attempt} (h : EndsAbreast s t x y) :
    EndsAbreast s t (x.1, x.2.branch) (y.1, y.2.branch) :=
  ⟨h.place, h.left, h.right, rfl⟩

/-- What a branch has found, with a mark of its own. -/
theorem EndsAbreast.merge {x y z w : Nat × Attempt} (h : EndsAbreast s t x y)
    (hend : EndsAbreast s t z w) :
    EndsAbreast s t (z.1, x.2.merge z.2.findings) (w.1, y.2.merge w.2.findings) :=
  ⟨hend.place, h.left, h.right, congrArg₂ (· ^^^ ·) h.mark hend.mark⟩

end Matching

section

variable [RegexEngine]

namespace Pattern

mutual

/-- Whether the pattern has no slots and no regular expressions. -/
def plain : Pattern → Bool
  | literal _ => true
  | sequence ps => plainAll ps
  | optional p => plain p
  | choice bs => plainEach bs
  | regex _ => false
  | slot _ _ _ => false

def plainAll : List Pattern → Bool
  | [] => true
  | p :: ps => plain p && plainAll ps

def plainEach : List (Int32 × Pattern) → Bool
  | [] => true
  | (_, p) :: bs => plain p && plainEach bs

end

mutual

/-- Plain patterns of one shape, with the same marks, whose literals are the same up to case. -/
inductive SameUpToCase : Pattern → Pattern → Prop
  | literal {s t : Text} (h : s.SameUpToCase t) : SameUpToCase (literal s) (literal t)
  | sequence {ps qs : List Pattern} (h : SameUpToCaseAll ps qs) :
      SameUpToCase (sequence ps) (sequence qs)
  | optional {p q : Pattern} (h : SameUpToCase p q) : SameUpToCase (optional p) (optional q)
  | choice {bs cs : List (Int32 × Pattern)} (h : SameUpToCaseEach bs cs) :
      SameUpToCase (choice bs) (choice cs)

inductive SameUpToCaseAll : List Pattern → List Pattern → Prop
  | nil : SameUpToCaseAll [] []
  | cons {p q : Pattern} {ps qs : List Pattern} (h : SameUpToCase p q) (hs : SameUpToCaseAll ps qs) :
      SameUpToCaseAll (p :: ps) (q :: qs)

inductive SameUpToCaseEach : List (Int32 × Pattern) → List (Int32 × Pattern) → Prop
  | nil : SameUpToCaseEach [] []
  | cons (mark : Int32) {p q : Pattern} {bs cs : List (Int32 × Pattern)} (h : SameUpToCase p q)
      (hs : SameUpToCaseEach bs cs) : SameUpToCaseEach ((mark, p) :: bs) ((mark, q) :: cs)

end

mutual

theorem SameUpToCase.refl : ∀ {p : Pattern}, p.plain = true → p.SameUpToCase p
  | .literal t, _ => .literal (.refl t)
  | .sequence _, h => .sequence (SameUpToCaseAll.refl h)
  | .optional _, h => .optional (SameUpToCase.refl h)
  | .choice _, h => .choice (SameUpToCaseEach.refl h)
  | .regex _, h => by cases h
  | .slot _ _ _, h => by cases h

theorem SameUpToCaseAll.refl : ∀ {ps : List Pattern}, plainAll ps = true → SameUpToCaseAll ps ps
  | [], _ => .nil
  | _ :: _, h =>
    have h := Bool.and_eq_true_iff.1 h
    .cons (SameUpToCase.refl h.1) (SameUpToCaseAll.refl h.2)

theorem SameUpToCaseEach.refl : ∀ {bs : List (Int32 × Pattern)}, plainEach bs = true →
    SameUpToCaseEach bs bs
  | [], _ => .nil
  | (mark, _) :: _, h =>
    have h := Bool.and_eq_true_iff.1 h
    .cons mark (SameUpToCase.refl h.1) (SameUpToCaseEach.refl h.2)

end

end Pattern

namespace Matching

variable {I : Session → Session → Prop} {r r' : Resolver} {s t : Text}

mutual

theorem node_abreast (hst : s.SameUpToCase t) : ∀ {p q : Pattern}, p.SameUpToCase q →
    ∀ (tail tail' : Tail) {i j : Nat} {a c : Attempt}, EndsAbreast s t (i, a) (j, c) →
      InStep I (EndsAbreast s t) (node r p tail i a) (node r' q tail' j c)
  | _, _, .literal hlm, _, _, i, j, a, c, h => by
    obtain ⟨hplace, rfl, rfl, hmark⟩ := h
    rw [node, node]
    refine (literalEnd_abreast hst hlm hplace).bind fun n m hnm => ?_
    exact .pure ⟨hnm, rfl, rfl, hmark⟩
  | _, _, .sequence hs, tail, tail', _, _, _, _, h => parts_abreast hst hs tail tail' h
  | _, _, .optional hp, tail, tail', _, _, _, _, h => by
    refine .orElse ((node_abreast hst hp tail tail' h.start).bind ?_) (.pure h)
    exact fun x y hxy => .pure (h.merge hxy)
  | _, _, .choice hs, tail, tail', _, _, _, _, h => branches_abreast hst hs tail tail' h

theorem parts_abreast (hst : s.SameUpToCase t) : ∀ {ps qs : List Pattern},
    Pattern.SameUpToCaseAll ps qs → ∀ (tail tail' : Tail) {i j : Nat} {a c : Attempt},
      EndsAbreast s t (i, a) (j, c) →
        InStep I (EndsAbreast s t) (parts r ps tail i a) (parts r' qs tail' j c)
  | _, _, .nil, _, _, _, _, _, _, h => .pure h
  | _ :: ps, _ :: qs, .cons hp hs, tail, tail', _, _, _, _, h => by
    refine (node_abreast hst hp (ps :: tail) (qs :: tail') h).bind fun x y hxy => ?_
    exact parts_abreast hst hs tail tail' hxy

theorem branches_abreast (hst : s.SameUpToCase t) : ∀ {bs cs : List (Int32 × Pattern)},
    Pattern.SameUpToCaseEach bs cs → ∀ (tail tail' : Tail) {i j : Nat} {a c : Attempt},
      EndsAbreast s t (i, a) (j, c) →
        InStep I (EndsAbreast s t) (branches r bs tail i a) (branches r' cs tail' j c)
  | _, _, .nil, _, _, _, _, _, _, _ => .failure
  | _, _, .cons mark hp hs, tail, tail', _, _, _, _, h => by
    refine .orElse ((node_abreast hst hp tail tail' h.start).bind fun x y hxy => ?_)
      (branches_abreast hst hs tail tail' h)
    obtain ⟨hplace, hleft, hright, hmark⟩ := h.merge hxy
    exact .pure ⟨hplace, hleft, hright, congrArg (· ^^^ mark) hmark⟩

end

/-! Nothing is cut but behind words that have been met, so the match of a plain pattern ends in no fault. -/

mutual

theorem node_faultless_of_sameUpToCase : ∀ {p q : Pattern}, p.SameUpToCase q →
    ∀ (tail : Tail) (i : Nat) (a : Attempt), Faultless (node r p tail i a)
  | _, _, .literal _, _, i, a => .bind (literalEnd_faultless _ a.source i) fun _ _ => .pure _
  | _, _, .sequence hs, tail, i, a => parts_faultless_of_sameUpToCase hs tail i a
  | _, _, .optional hp, tail, i, a => by
    refine .orElse (.bind (node_faultless_of_sameUpToCase hp tail i a.branch) ?_) (.pure _)
    exact fun _ _ => .pure _
  | _, _, .choice hs, tail, i, a => branches_faultless_of_sameUpToCase hs tail i a

theorem parts_faultless_of_sameUpToCase : ∀ {ps qs : List Pattern}, Pattern.SameUpToCaseAll ps qs →
    ∀ (tail : Tail) (i : Nat) (a : Attempt), Faultless (parts r ps tail i a)
  | _, _, .nil, _, _, _ => .pure _
  | p :: ps, _, .cons hp hs, tail, i, a => by
    refine .bind (node_faultless_of_sameUpToCase hp (ps :: tail) i a) fun (j, b) _ => ?_
    exact parts_faultless_of_sameUpToCase hs tail j b

theorem branches_faultless_of_sameUpToCase : ∀ {bs cs : List (Int32 × Pattern)},
    Pattern.SameUpToCaseEach bs cs → ∀ (tail : Tail) (i : Nat) (a : Attempt),
      Faultless (branches r bs tail i a)
  | _, _, .nil, _, _, _ => .failure
  | _, _, .cons _ hp hs, tail, i, a => by
    refine .orElse (.bind (node_faultless_of_sameUpToCase hp tail i a.branch) ?_)
      (branches_faultless_of_sameUpToCase hs tail i a)
    exact fun _ _ => .pure _

end

end Matching

namespace Book

open Matching

/-- A plain pattern is the same up to case as itself. Whatever the book and the sessions are, patterns that
are the same up to case match texts that are so either both or neither; if they match, then both matches
end behind the same number of characters and with the same mark. The sessions stay as they are. -/
theorem matchPattern_upToCase :
    (∀ p : Pattern, p.plain = true → p.SameUpToCase p) ∧
    ∀ (b : Book) (p q : Pattern) (s t : Text) (before before' : Session),
      p.SameUpToCase q → s.SameUpToCase t →
        b.matchPattern p s before = (.missed, before) ∧
            b.matchPattern q t before' = (.missed, before') ∨
          ∃ k ≤ s.length, ∃ a c,
            b.matchPattern p s before = (.found (Text.width (s.take k), a), before) ∧
            b.matchPattern q t before' = (.found (Text.width (t.take k), c), before') ∧
            a.findings.mark = c.findings.mark := by
  refine ⟨fun p => .refl, fun b p q s t before before' hpq hst => ?_⟩
  have hends : EndsAbreast s t (0, .start s []) (0, .start t []) := ⟨.zero s t, rfl, rfl, rfl⟩
  have hmatch : InStep (fun x y => x = before ∧ y = before') (EndsAbreast s t) (b.matchPattern p s)
      (b.matchPattern q t) := node_abreast hst hpq [] [] hends
  have hfaultless : Faultless (b.matchPattern p s) := node_faultless_of_sameUpToCase hpq [] 0 _
  obtain ⟨hout, hbefore, hbefore'⟩ := hmatch before before' ⟨rfl, rfl⟩
  rcases hx : b.matchPattern p s before with ⟨x, after⟩
  rcases hy : b.matchPattern q t before' with ⟨y, after'⟩
  rw [hx] at hout hbefore
  rw [hy] at hout hbefore'
  obtain rfl : after = before := hbefore
  obtain rfl : after' = before' := hbefore'
  cases hout with
  | missed => exact .inl ⟨rfl, rfl⟩
  | fault e => exact absurd (congrArg Prod.fst hx) (hfaultless after e)
  | @found x y h =>
    obtain ⟨⟨k, hk, hi, hj⟩, -, -, hmark⟩ := h
    exact .inr ⟨k, hk, x.2, y.2, by rw [← hi], by rw [← hj], hmark⟩

end Book

end

namespace Book

/-- A unit of temperature by its name, with a mark for each. -/
def unitTree [RegexEngine] (kelvin : Text) : Pattern :=
  .sequence [.optional (.literal "in ".toList),
    .choice [(1, .literal "celsius".toList), (2, .literal kelvin)]]

def unitText (kelvin : Text) : Text := "In ".toList ++ kelvin ++ ['.']

/-- The sign for kelvin has a letter for its lower case, and is two bytes wider. -/
def kelvinSigned : Text := '\u212a' :: "ELVIN".toList

theorem matchPattern_upToCase_kelvin :
    (unitTree kelvinSigned).SameUpToCase (unitTree "Kelvin".toList) ∧
    (unitText "kelvin".toList).SameUpToCase (unitText kelvinSigned) ∧
    ∃ k a c,
      (Standard.book {}).matchPattern (unitTree kelvinSigned) (unitText "kelvin".toList)
        (Standard.book {}).fresh = (.found (9, a), (Standard.book {}).fresh) ∧
      (Standard.book {}).matchPattern (unitTree "Kelvin".toList) (unitText kelvinSigned)
        (Standard.book {}).fresh = (.found (11, c), (Standard.book {}).fresh) ∧
      Text.width ((unitText "kelvin".toList).take k) = 9 ∧
      Text.width ((unitText kelvinSigned).take k) = 11 ∧ a.findings.mark = c.findings.mark := by
  have hword : Text.SameUpToCase kelvinSigned "Kelvin".toList := by
    unfold Text.SameUpToCase
    decide +kernel
  have hplain : (Pattern.optional (.literal "in ".toList)).plain = true ∧
      (Pattern.literal "celsius".toList).plain = true := ⟨rfl, rfl⟩
  have htree : (unitTree kelvinSigned).SameUpToCase (unitTree "Kelvin".toList) :=
    .sequence (.cons (matchPattern_upToCase.1 _ hplain.1)
      (.cons (.choice (.cons 1 (matchPattern_upToCase.1 _ hplain.2) (.cons 2 (.literal hword) .nil)))
        .nil))
  have htext : (unitText "kelvin".toList).SameUpToCase (unitText kelvinSigned) := by
    unfold Text.SameUpToCase
    decide +kernel
  have hends : ((Standard.book {}).matchPattern (unitTree kelvinSigned) (unitText "kelvin".toList)
        (Standard.book {}).fresh).1.toOption.map (·.1) = some 9 ∧
      ((Standard.book {}).matchPattern (unitTree "Kelvin".toList) (unitText kelvinSigned)
        (Standard.book {}).fresh).1.toOption.map (·.1) = some 11 := by
    decide +kernel
  refine ⟨htree, htext, ?_⟩
  rcases matchPattern_upToCase.2 (Standard.book {}) _ _ _ _ (Standard.book {}).fresh
      (Standard.book {}).fresh htree htext with ⟨hmissed, -⟩ | ⟨k, -, a, c, ha, hc, hmark⟩
  · rw [hmissed] at hends
    cases hends.1
  · rw [ha, hc] at hends
    have hnine : Text.width ((unitText "kelvin".toList).take k) = 9 := Option.some.inj hends.1
    have heleven : Text.width ((unitText kelvinSigned).take k) = 11 := Option.some.inj hends.2
    exact ⟨k, a, c, by rw [ha, hnine], by rw [hc, heleven], hnine, heleven, hmark⟩

end Book

end Phrasebook
