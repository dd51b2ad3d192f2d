import Mathlib.Logic.Relation
import Phrasebook.Proofs.Matching.Offered
import Phrasebook.Proofs.Search
import Phrasebook.Resolution
import Phrasebook.Standard

/-!
Sequences inside sequences. A sequence that stands inside another can be opened up, and a sequence of one
part can give way to the part, anywhere in a pattern, without any effect on a match. A slot does look at
what stands behind it, in the sequences around it, but only through the boundaries that this offers, and
those are read off the parts in a row.
-/

namespace Phrasebook

namespace Pattern

variable [RegexEngine]

/-- Somewhere in the tree a sequence inside a sequence is opened up, or a sequence of one part gives way
to the part. -/
inductive Unnests : Pattern → Pattern → Prop
  | splice (front inner back : List Pattern) :
      Unnests (sequence (front ++ sequence inner :: back)) (sequence (front ++ (inner ++ back)))
  | single (p : Pattern) : Unnests (sequence [p]) p
  | part (front back : List Pattern) {p q : Pattern} (h : Unnests p q) :
      Unnests (sequence (front ++ p :: back)) (sequence (front ++ q :: back))
  | inner {p q : Pattern} (h : Unnests p q) : Unnests (optional p) (optional q)
  | branch (front back : List (Int32 × Pattern)) (mark : Int32) {p q : Pattern} (h : Unnests p q) :
      Unnests (choice (front ++ (mark, p) :: back)) (choice (front ++ (mark, q) :: back))

/-! ## What is read from in front -/

/-- What stands in front of the one row cannot tell it from the other. -/
structure ReadAlike (ps qs : List Pattern) : Prop where
  skippable : skippableAll ps = skippableAll qs
  offers : offersAll ps = offersAll qs

namespace ReadAlike

variable {ps ps' qs qs' : List Pattern} {p q : Pattern}

theorem refl (ps : List Pattern) : ReadAlike ps ps := ⟨rfl, rfl⟩

theorem symm (h : ReadAlike ps qs) : ReadAlike qs ps := ⟨h.skippable.symm, h.offers.symm⟩

theorem trans (h : ReadAlike ps qs) (h' : ReadAlike qs qs') : ReadAlike ps qs' :=
  ⟨h.skippable.trans h'.skippable, h.offers.trans h'.offers⟩

theorem append (h : ReadAlike ps ps') (h' : ReadAlike qs qs') : ReadAlike (ps ++ qs) (ps' ++ qs') where
  skippable := by rw [skippableAll_append, skippableAll_append, h.skippable, h'.skippable]
  offers := by rw [offersAll_append, offersAll_append, h.skippable, h.offers, h'.offers]

theorem singleton_iff :
    ReadAlike [p] [q] ↔ p.skippable = q.skippable ∧ p.offers = q.offers := by
  have hskippable (p : Pattern) : skippableAll [p] = p.skippable := Bool.and_true _
  have hoffers (p : Pattern) : offersAll [p] = p.offers := by
    rw [offersAll, offersAll, ite_self, List.append_nil]
  constructor
  · rintro ⟨hskip, hoffer⟩
    rw [hskippable, hskippable] at hskip
    rw [hoffers, hoffers] at hoffer
    exact ⟨hskip, hoffer⟩
  · rintro ⟨hskip, hoffer⟩
    exact ⟨by rw [hskippable, hskippable, hskip], by rw [hoffers, hoffers, hoffer]⟩

/-- A sequence reads as its parts in a row. -/
theorem sequence (ps : List Pattern) : ReadAlike [.sequence ps] ps where
  skippable := Bool.and_true _
  offers := by rw [offersAll, offersAll, ite_self, List.append_nil, Pattern.offers]

/-- Rows in the place of one another, between the same other parts. -/
theorem between (front back : List Pattern) (h : ReadAlike ps qs) :
    ReadAlike (front ++ (ps ++ back)) (front ++ (qs ++ back)) :=
  (refl front).append (h.append (refl back))

theorem optional (h : ReadAlike [p] [q]) : ReadAlike [.optional p] [.optional q] := by
  obtain ⟨-, hoffers⟩ := singleton_iff.1 h
  exact singleton_iff.2 ⟨rfl, hoffers⟩

theorem choice (front back : List (Int32 × Pattern)) (mark : Int32) (h : ReadAlike [p] [q]) :
    ReadAlike [.choice (front ++ (mark, p) :: back)] [.choice (front ++ (mark, q) :: back)] := by
  obtain ⟨hskip, hoffers⟩ := singleton_iff.1 h
  rw [singleton_iff]
  induction front with
  | nil =>
    constructor
    · exact congrArg (· || skippableAny back) hskip
    · exact congrArg (· ++ offersAny back) hoffers
  | cons b front ih =>
    constructor
    · exact congrArg (b.2.skippable || ·) ih.1
    · exact congrArg (b.2.offers ++ ·) ih.2

end ReadAlike

theorem Unnests.readAlike {p q : Pattern} (h : Unnests p q) : ReadAlike [p] [q] := by
  induction h with
  | splice front inner back =>
    refine (ReadAlike.sequence _).trans (.trans ?_ (ReadAlike.sequence _).symm)
    exact (ReadAlike.sequence inner).between front back
  | single p => exact .sequence [p]
  | part front back _ ih =>
    exact (ReadAlike.sequence _).trans ((ih.between front back).trans (ReadAlike.sequence _).symm)
  | inner _ ih => exact ih.optional
  | branch front back mark _ ih => exact .choice front back mark ih

end Pattern

open Pattern

theorem Tail.boundaries_eq_of_readAlike [RegexEngine] {tail tail' : Tail}
    (h : ReadAlike tail.flatten tail'.flatten) : tail.boundaries = tail'.boundaries := by
  rw [Tail.boundaries, Tail.boundaries, boundariesAll_false, boundariesAll_false, h.skippable, h.offers]

/-- Rows that read alike, anywhere in a tail. -/
theorem Tail.boundaries_between [RegexEngine] (inner outer : Tail) {ps qs : List Pattern}
    (h : ReadAlike ps qs) :
    Tail.boundaries (inner ++ ps :: outer) = Tail.boundaries (inner ++ qs :: outer) := by
  apply Tail.boundaries_eq_of_readAlike
  rw [List.flatten_append, List.flatten_append, List.flatten_cons, List.flatten_cons]
  exact h.between inner.flatten outer.flatten

namespace Matching

section

variable [RegexEngine] {resolve : Resolver} {tail tail' : Tail}

/-! ## What a match sees of its tail -/

theorem regexEnd_congr (h : tail.boundaries = tail'.boundaries) (g : RegexPart) (source : Text)
    (i : Nat) : regexEnd g tail source i = regexEnd g tail' source i := by
  unfold regexEnd
  rw [h]

theorem slotEnd_congr (h : tail.boundaries = tail'.boundaries) (types : List SlotType)
    (accepts : Acceptance) (a : Attempt) (i : Nat) :
    slotEnd resolve types accepts tail a i = slotEnd resolve types accepts tail' a i := by
  unfold slotEnd
  rw [h]

mutual

/-- Tails that read alike are alike to all that is matched in front of them. -/
theorem node_congr_tail : ∀ (p : Pattern) {tail tail' : Tail},
    ReadAlike tail.flatten tail'.flatten → ∀ (i : Nat) (a : Attempt),
      node resolve p tail i a = node resolve p tail' i a
  | .literal t, _, _, _, i, a => by rw [node, node]
  | .sequence ps, _, _, h, i, a => parts_congr_tail ps h i a
  | .optional p, _, _, h, i, a => by rw [node, node, node_congr_tail p h]
  | .choice bs, _, _, h, i, a => branches_congr_tail bs h i a
  | .regex g, _, _, h, i, a => by
    rw [node, node, regexEnd_congr (Tail.boundaries_eq_of_readAlike h)]
  | .slot types accepts _, _, _, h, i, a => by
    rw [node, node, slotEnd_congr (Tail.boundaries_eq_of_readAlike h)]

theorem parts_congr_tail : ∀ (ps : List Pattern) {tail tail' : Tail},
    ReadAlike tail.flatten tail'.flatten → ∀ (i : Nat) (a : Attempt),
      parts resolve ps tail i a = parts resolve ps tail' i a
  | [], _, _, _, i, a => by rw [parts, parts]
  | p :: ps, tail, tail', h, i, a => by
    have hrest : ReadAlike (ps :: tail).flatten (ps :: tail').flatten := (ReadAlike.refl ps).append h
    rw [parts, parts, node_congr_tail p hrest]
    exact congrArg _ (funext fun x => parts_congr_tail ps h x.1 x.2)

theorem branches_congr_tail : ∀ (bs : List (Int32 × Pattern)) {tail tail' : Tail},
    ReadAlike tail.flatten tail'.flatten → ∀ (i : Nat) (a : Attempt),
      branches resolve bs tail i a = branches resolve bs tail' i a
  | [], _, _, _, i, a => by rw [branches, branches]
  | (mark, p) :: bs, _, _, h, i, a => by
    rw [branches, branches, node_congr_tail p h, branches_congr_tail bs h]

end

/-! ## Parts in a row -/

/-- The parts of the second row follow those of the first, which they are the tail of. -/
theorem parts_append (ps qs : List Pattern) (tail : Tail) (i : Nat) (a : Attempt) :
    parts resolve (ps ++ qs) tail i a =
      parts resolve ps (qs :: tail) i a >>= fun x => parts resolve qs tail x.1 x.2 := by
  induction ps generalizing i a with
  | nil => rfl
  | cons p ps ih =>
    -- the same parts stand behind the first one, only the row is cut elsewhere
    have htail : ReadAlike ((ps ++ qs) :: tail).flatten (ps :: qs :: tail).flatten := by
      rw [List.flatten_cons, List.flatten_cons, List.flatten_cons, List.append_assoc]
      exact .refl _
    rw [List.cons_append, parts, parts, Search.bind_assoc, node_congr_tail p htail]
    exact congrArg _ (funext fun x => ih x.1 x.2)

theorem node_sequence (ps : List Pattern) (tail : Tail) (i : Nat) (a : Attempt) :
    node resolve (.sequence ps) tail i a = parts resolve ps tail i a := rfl

/-- Rows that read alike and match alike do so between the same other parts. -/
theorem parts_between (front : List Pattern) {ps qs : List Pattern} (hread : ReadAlike ps qs)
    (h : ∀ i a, parts resolve ps tail i a = parts resolve qs tail i a) (i : Nat) (a : Attempt) :
    parts resolve (front ++ ps) tail i a = parts resolve (front ++ qs) tail i a := by
  have hrest : ReadAlike (ps :: tail).flatten (qs :: tail).flatten := hread.append (.refl _)
  rw [parts_append, parts_append, parts_congr_tail front hrest]
  exact congrArg _ (funext fun x => h x.1 x.2)

theorem branches_between (front back : List (Int32 × Pattern)) (mark : Int32) {p q : Pattern}
    (h : ∀ i a, node resolve p tail i a = node resolve q tail i a) (i : Nat) (a : Attempt) :
    branches resolve (front ++ (mark, p) :: back) tail i a =
      branches resolve (front ++ (mark, q) :: back) tail i a := by
  induction front with
  | nil => rw [List.nil_append, List.nil_append, branches, branches, h]
  | cons b front ih =>
    rw [List.cons_append, List.cons_append, branches, branches, ih]

theorem node_eq_of_unnests {p q : Pattern} (h : p.Unnests q) (tail : Tail) (i : Nat) (a : Attempt) :
    node resolve p tail i a = node resolve q tail i a := by
  induction h generalizing tail i a with
  | splice front inner back =>
    -- what is in front looks at the row that begins with the inner sequence, open or not
    refine parts_between front ((ReadAlike.sequence inner).append (.refl back)) (fun i a => ?_) i a
    rw [parts_append inner back, List.singleton_append, parts, node_sequence]
  | single p =>
    have htail : ReadAlike ([] :: tail).flatten tail.flatten := .refl _
    rw [node_sequence, parts, node_congr_tail p htail]
    exact Search.bind_pure _
  | part front back h ih =>
    refine parts_between front (h.readAlike.append (.refl back)) (fun i a => ?_) i a
    rw [List.singleton_append, List.singleton_append, parts, parts, ih]
  | inner _ ih => rw [node, node, ih]
  | branch front back mark _ ih => exact branches_between front back mark (ih tail) i a

/-! ## Any number of times -/

section

variable {p q : Pattern} (h : Relation.ReflTransGen Unnests p q)
include h

theorem readAlike_of_reaches : ReadAlike [p] [q] := by
  induction h with
  | refl => exact .refl [p]
  | tail _ hstep ih => exact ih.trans hstep.readAlike

theorem node_eq_of_reaches (tail : Tail) (i : Nat) (a : Attempt) :
    node resolve p tail i a = node resolve q tail i a := by
  induction h with
  | refl => rfl
  | tail _ hstep ih => exact ih.trans (node_eq_of_unnests hstep tail i a)

end

/-- However sequences are nested in a pattern, it is matched in the same way by whatever resolver, in front
of whatever tail, and standing in a tail, as one part or spread out, it offers the same boundaries. -/
theorem node_unnested {p q : Pattern} (h : Relation.ReflTransGen Unnests p q) :
    (∀ (resolve : Resolver) (tail : Tail) (i : Nat) (a : Attempt),
      node resolve p tail i a = node resolve q tail i a) ∧
    (∀ (inner outer : Tail) (front back : List Pattern),
      Tail.boundaries (inner ++ (front ++ p :: back) :: outer) =
        Tail.boundaries (inner ++ (front ++ q :: back) :: outer)) ∧
    (∀ ps qs, p = .sequence ps → q = .sequence qs → ∀ inner outer : Tail,
      Tail.boundaries (inner ++ ps :: outer) = Tail.boundaries (inner ++ qs :: outer)) ∧
    ∀ (b : Book) (text : Text) (i : Nat), b.matchFrom p text i = b.matchFrom q text i := by
  have hread := readAlike_of_reaches h
  refine ⟨fun _ => node_eq_of_reaches h, fun inner outer front back => ?_, ?_, fun b text i => ?_⟩
  · exact Tail.boundaries_between inner outer (hread.between front back)
  · rintro ps qs rfl rfl inner outer
    apply Tail.boundaries_between
    exact (ReadAlike.sequence ps).symm.trans (hread.trans (.sequence qs))
  · exact node_eq_of_reaches h [] i (Attempt.start text [])

end

/-- A square put together from pieces: one ends in a slot, and the word behind the slot is another. -/
def pieced : Pattern :=
  .sequence [.sequence [.optional (.literal "the ".toList), .literal "number".toList,
      .slot [⟨⟨1⟩, "number", true⟩] .both false],
    .sequence [.literal " squared".toList]]

def levelled : Pattern :=
  .sequence [.optional (.literal "the ".toList), .literal "number".toList,
    .slot [⟨⟨1⟩, "number", true⟩] .both false, .literal " squared".toList]

/-- The slot ends at the word, whether or not this stands in the same sequence. -/
theorem node_unnested_levelled :
    Relation.ReflTransGen Unnests pieced levelled ∧
    (∃ a s, (Standard.book {}).matchFrom pieced "The number 1 squared".toList 0
        (Standard.book {}).fresh = (.found (20, a), s) ∧
      (Standard.book {}).matchFrom levelled "The number 1 squared".toList 0
        (Standard.book {}).fresh = (.found (20, a), s)) ∧
    Tail.boundaries [[.literal " ".toList, pieced]] = Tail.boundaries [[.literal " ".toList, levelled]] ∧
    Tail.boundaries [[.literal " ".toList, levelled]] =
      [.word "the".toList false true, .word "number".toList false false] := by
  have h : Relation.ReflTransGen Unnests pieced levelled := by
    refine .head (.splice [] _ _) (.single ?_)
    exact .part [_, _, _] [] (.single _)
  obtain ⟨-, hboundaries, -, hmatch⟩ := node_unnested h
  refine ⟨h, ?_, hboundaries [] [] [_] [], rfl⟩
  have hend : ((Standard.book {}).matchFrom pieced "The number 1 squared".toList 0
      (Standard.book {}).fresh).1.toOption.map (·.1) = some 20 := by
    decide +kernel
  rw [hmatch] at hend ⊢
  rcases hx : (Standard.book {}).matchFrom levelled "The number 1 squared".toList 0
    (Standard.book {}).fresh with ⟨o, s⟩
  rw [hx] at hend
  cases o with
  | missed => cases hend
  | fault e => cases hend
  | found r =>
    obtain ⟨j, a⟩ := r
    cases hend
    exact ⟨a, s, rfl, rfl⟩

end Matching

end Phrasebook
