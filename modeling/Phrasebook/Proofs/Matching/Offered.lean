import Phrasebook.Proofs.Pattern.Canonical
import Phrasebook.Matching.Boundary

/-!
What stands behind a slot. The parts of the tail offer boundaries one after the other, up to the first
part that must be present; the end of the text is a boundary exactly if there is no such part. A blank
literal offers no boundary of its own, and a slot offers the same one with or without it.
-/

namespace Phrasebook

theorem Text.trim_eq_nil_iff {t : Text} : Text.trim t = [] ↔ t.all isBlank = true := by
  rw [List.all_eq_true]
  constructor
  · intro h
    have hrev : ∀ c ∈ (trimStart t).reverse, isBlank c = true :=
      List.dropWhile_eq_nil_iff.1 (List.reverse_eq_nil_iff.1 h)
    intro c hc
    rw [← List.takeWhile_append_dropWhile (p := isBlank) (l := t)] at hc
    rcases List.mem_append.1 hc with hc | hc
    · exact List.mem_takeWhile_imp hc
    · exact hrev c (List.mem_reverse.2 hc)
  · intro h
    have hstart : trimStart t = [] := List.dropWhile_eq_nil_iff.2 h
    rw [trim, hstart]
    rfl

namespace Pattern

variable [RegexEngine]

/-! ## What can be left out -/

mutual

def skippable : Pattern → Bool
  | literal t => t.all Text.isBlank
  | sequence ps => skippableAll ps
  | optional _ => true
  | choice bs => skippableAny bs
  | regex _ => false
  | slot _ _ _ => false

def skippableAll : List Pattern → Bool
  | [] => true
  | p :: ps => skippable p && skippableAll ps

def skippableAny : List (Int32 × Pattern) → Bool
  | [] => false
  | (_, p) :: bs => skippable p || skippableAny bs

end

theorem skippableAll_iff {ps : List Pattern} :
    skippableAll ps = true ↔ ∀ p ∈ ps, p.skippable = true := by
  induction ps with
  | nil => simp [skippableAll]
  | cons p ps ih => rw [skippableAll, Bool.and_eq_true, ih, List.forall_mem_cons]

theorem skippableAll_append (ps qs : List Pattern) :
    skippableAll (ps ++ qs) = (skippableAll ps && skippableAll qs) := by
  induction ps with
  | nil => rfl
  | cons p ps ih => rw [List.cons_append, skippableAll, ih, skippableAll, Bool.and_assoc]

/-! ## What is offered -/

mutual

/-- The boundaries that a pattern has for what stands in front of it, wherever it stands itself. -/
def offers : Pattern → List Boundary
  | literal t =>
    if t.all Text.isBlank then []
    else [.word t.trim (t.head?.any Text.isBlank) (t.getLast?.any Text.isBlank)]
  | sequence ps => offersAll ps
  | optional p => offers p
  | choice bs => offersAny bs
  | regex g => [.regex g]
  | slot _ _ _ => [.blank]

def offersAll : List Pattern → List Boundary
  | [] => []
  | p :: ps => offers p ++ if skippable p then offersAll ps else []

def offersAny : List (Int32 × Pattern) → List Boundary
  | [] => []
  | (_, p) :: bs => offers p ++ offersAny bs

end

theorem offersAll_append (ps qs : List Pattern) :
    offersAll (ps ++ qs) = offersAll ps ++ if skippableAll ps then offersAll qs else [] := by
  induction ps with
  | nil => rfl
  | cons p ps ih =>
    rw [List.cons_append, offersAll, offersAll, skippableAll, ih]
    cases p.skippable with
    | false => simp
    | true => simp

theorem offersAll_of_skippable {ps : List Pattern} (h : ∀ p ∈ ps, p.skippable = true) :
    offersAll ps = ps.flatMap offers := by
  induction ps with
  | nil => rfl
  | cons p ps ih =>
    obtain ⟨hp, hps⟩ := List.forall_mem_cons.1 h
    rw [offersAll, if_pos hp, ih hps, List.flatMap_cons]

mutual

/-- The end of the text is never offered by what stands in front of it. -/
theorem textEnd_not_mem_offers : ∀ p : Pattern, .textEnd ∉ p.offers
  | literal t => by
    rw [offers]
    split <;> simp
  | sequence ps => textEnd_not_mem_offersAll ps
  | optional p => textEnd_not_mem_offers p
  | choice bs => textEnd_not_mem_offersAny bs
  | regex g => by simp [offers]
  | slot _ _ _ => by simp [offers]

theorem textEnd_not_mem_offersAll : ∀ ps : List Pattern, .textEnd ∉ offersAll ps
  | [] => List.not_mem_nil
  | p :: ps => by
    intro h
    rcases List.mem_append.1 h with h | h
    · exact textEnd_not_mem_offers p h
    · split at h
      · exact textEnd_not_mem_offersAll ps h
      · exact List.not_mem_nil h

theorem textEnd_not_mem_offersAny : ∀ bs : List (Int32 × Pattern), .textEnd ∉ offersAny bs
  | [] => List.not_mem_nil
  | (_, p) :: bs => fun h => (List.mem_append.1 h).elim (textEnd_not_mem_offers p)
      (textEnd_not_mem_offersAny bs)

end

/-- A pattern all of whose choices have branches. -/
inductive Branched : Pattern → Prop
  | literal (t : Text) : Branched (literal t)
  | sequence {ps : List Pattern} (all : ∀ p ∈ ps, Branched p) : Branched (sequence ps)
  | optional {p : Pattern} (inner : Branched p) : Branched (optional p)
  | choice {bs : List (Int32 × Pattern)} (some : bs ≠ []) (all : ∀ b ∈ bs, Branched b.2) :
      Branched (choice bs)
  | regex (g : RegexPart) : Branched (regex g)
  | slot (ts : List SlotType) (accepts : Acceptance) (nullable : Bool) :
      Branched (slot ts accepts nullable)

theorem Canonical.branched {types : TypeNames} {t : Text} {p : Pattern} (h : Canonical types t p) :
    p.Branched := by
  induction h with
  | literal s => exact .literal s
  | sequence _ _ _ _ ih => exact .sequence ih
  | optional _ ih => exact .optional ih
  | choice some _ _ ih => exact .choice some ih
  | regex _ _ => exact .regex _
  | slot _ _ => exact .slot _ _ _

theorem offersAll_ne_nil {ps : List Pattern} (h : ∀ p ∈ ps, p.skippable = false → p.offers ≠ [])
    (hps : skippableAll ps = false) : offersAll ps ≠ [] := by
  induction ps with
  | nil => cases hps
  | cons p ps ih =>
    obtain ⟨hp, hlater⟩ := List.forall_mem_cons.1 h
    rw [offersAll]
    cases hskip : p.skippable with
    | false => exact List.append_ne_nil_of_left_ne_nil (hp hskip) _
    | true =>
      rw [skippableAll, hskip, Bool.true_and] at hps
      exact List.append_ne_nil_of_right_ne_nil _ (ih hlater hps)

/-- What must be present offers something. -/
theorem Branched.offers_ne_nil {p : Pattern} (h : p.Branched) (hp : p.skippable = false) :
    p.offers ≠ [] := by
  induction h with
  | literal t =>
    rw [skippable] at hp
    simp [offers, hp]
  | @sequence ps _ ih => exact offersAll_ne_nil ih hp
  | optional _ _ => cases hp
  | @choice bs some _ ih =>
    obtain ⟨b, bs, rfl⟩ := List.exists_cons_of_ne_nil some
    change (b.2.skippable || skippableAny bs) = false at hp
    have hb := (Bool.or_eq_false_iff.1 hp).1
    exact List.append_ne_nil_of_left_ne_nil (ih b List.mem_cons_self hb) (offersAny bs)
  | regex g => exact List.cons_ne_nil _ _
  | slot _ _ _ => exact List.cons_ne_nil _ _

/-! ## Reading the boundaries off -/

mutual

/-- A pattern without parts has no boundaries, and one that begins with a slot has that of the slot. -/
theorem boundaries_of_slotFirst? (next : Bool) : ∀ {p : Pattern}, slotFirst? p ≠ some false →
    boundaries next p = ((slotFirst? p).toList.map fun _ => .blank, (slotFirst? p).isSome)
  | literal _, h => absurd rfl h
  | sequence _, h => boundariesAll_of_slotFirstAll? next h
  | optional _, h => absurd rfl h
  | choice _, h => absurd rfl h
  | regex _, h => absurd rfl h
  | slot _ _ _, _ => rfl

theorem boundariesAll_of_slotFirstAll? (next : Bool) : ∀ {ps : List Pattern},
    slotFirstAll? ps ≠ some false →
    boundariesAll next ps =
      ((slotFirstAll? ps).toList.map fun _ => .blank, (slotFirstAll? ps).isSome)
  | [], _ => rfl
  | p :: ps, h => by
    rw [slotFirstAll?] at h ⊢
    rw [boundariesAll]
    cases hp : slotFirst? p with
    | none =>
      rw [hp] at h
      rw [boundaries_of_slotFirst? _ (by simp [hp]), boundariesAll_of_slotFirstAll? _ h, hp]
      simp
    | some first =>
      rw [hp] at h
      rw [boundaries_of_slotFirst? _ (by simpa [hp] using h), hp]
      simp

end

/-- What is read off of a pattern with these boundaries of its own. In front of a slot, blank literals
at the end of what can be left out give the boundary of that slot beforehand. -/
def Tells (next : Bool) (offered : List Boundary) (skip : Bool) (read : List Boundary × Bool) : Prop :=
  read = (offered, !skip) ∨ next = true ∧ skip = true ∧ read = (offered ++ [.blank], true)

theorem Tells.of_not_next {offered : List Boundary} {skip : Bool} {read : List Boundary × Bool}
    (h : Tells false offered skip read) : read = (offered, !skip) :=
  h.resolve_right fun h => Bool.false_ne_true h.1

/-- One part and those after it, of which `first` tells whether they begin with a slot. The boundary read
beforehand is the one that the slot, or what follows after nothing, would have given. -/
theorem Tells.cons {next : Bool} {first : Option Bool} {bs cs : List Boundary} {skip skips : Bool}
    {here later : List Boundary × Bool} (hhere : Tells (first.getD next) bs skip here)
    (hlater : Tells next cs skips later)
    (hfirst : first ≠ some false → later = (first.toList.map fun _ => .blank, first.isSome)) :
    Tells next (bs ++ if skip then cs else []) (skip && skips)
      (if here.2 then (here.1, true) else (here.1 ++ later.1, later.2)) := by
  rcases hhere with rfl | ⟨hnext, rfl, rfl⟩
  · cases skip with
    | false => exact .inl (by simp)
    | true =>
      rcases hlater with rfl | ⟨rfl, rfl, rfl⟩
      · exact .inl (by simp)
      · exact .inr ⟨rfl, rfl, by simp⟩
  -- The scan stops here, at blanks, so what the parts after it would have given decides.
  · cases first with
    | none =>
      have hread : later = ([], false) := hfirst (by simp)
      rcases hlater with h | ⟨-, -, h⟩
      · obtain ⟨rfl, hskips⟩ := Prod.mk.inj (h.symm.trans hread)
        exact .inr ⟨hnext, by simpa using hskips, by simp⟩
      · simp [hread] at h
    | some slot =>
      obtain rfl : slot = true := hnext
      have hread : later = ([.blank], true) := hfirst (by simp)
      rcases hlater with h | ⟨hnext, hskips, h⟩
      · obtain ⟨rfl, hskips⟩ := Prod.mk.inj (h.symm.trans hread)
        exact .inl (by simp [hskips])
      · obtain rfl : cs = [] := by simpa using (Prod.mk.inj (h.symm.trans hread)).1
        exact .inr ⟨hnext, by simpa using hskips, by simp⟩

mutual

theorem boundaries_tells (next : Bool) : ∀ p : Pattern,
    Tells next p.offers p.skippable (boundaries next p)
  | literal t => by
    simp only [boundaries, offers, skippable, Text.trim_eq_nil_iff]
    cases t.all Text.isBlank with
    | false => exact .inl rfl
    | true =>
      cases next with
      | false => exact .inl rfl
      | true => exact .inr ⟨rfl, rfl, rfl⟩
  | sequence ps => boundariesAll_tells next ps
  | optional p => by
    have hp := (boundaries_tells false p).of_not_next
    exact .inl (by rw [boundaries, hp, offers, skippable]; rfl)
  | choice bs => .inl (boundariesAny_eq bs)
  | regex _ => .inl rfl
  | slot _ _ _ => .inl rfl

theorem boundariesAll_tells (next : Bool) : ∀ ps : List Pattern,
    Tells next (offersAll ps) (skippableAll ps) (boundariesAll next ps)
  | [] => .inl rfl
  | p :: ps => (boundaries_tells _ p).cons (boundariesAll_tells next ps)
      (boundariesAll_of_slotFirstAll? next)

theorem boundariesAny_eq : ∀ bs : List (Int32 × Pattern),
    boundariesAny bs = (offersAny bs, !skippableAny bs)
  | [] => rfl
  | (_, p) :: bs => by
    rw [boundariesAny, (boundaries_tells false p).of_not_next, boundariesAny_eq bs, offersAny,
      skippableAny, Bool.not_or]

end

theorem boundariesAll_false (ps : List Pattern) :
    boundariesAll false ps = (offersAll ps, !skippableAll ps) :=
  (boundariesAll_tells false ps).of_not_next

/-! ## Sequences opened up -/

mutual

/-- The parts that stand in a row when sequences inside sequences are opened up. -/
def opened : Pattern → List Pattern
  | literal t => [literal t]
  | sequence ps => openedAll ps
  | optional p => [optional p]
  | choice bs => [choice bs]
  | regex g => [regex g]
  | slot types accepts nullable => [slot types accepts nullable]

def openedAll : List Pattern → List Pattern
  | [] => []
  | p :: ps => opened p ++ openedAll ps

end

theorem openedAll_eq_flatMap (ps : List Pattern) : openedAll ps = ps.flatMap opened := by
  induction ps with
  | nil => rfl
  | cons p ps ih => rw [openedAll, ih, List.flatMap_cons]

mutual

/-- Opening sequences up changes neither what can be left out nor what is offered. -/
theorem opened_reads : ∀ p : Pattern,
    skippableAll p.opened = p.skippable ∧ offersAll p.opened = p.offers
  | literal t => by simp [opened, skippableAll, offersAll]
  | sequence ps => openedAll_reads ps
  | optional p => by simp [opened, skippableAll, offersAll]
  | choice bs => by simp [opened, skippableAll, offersAll]
  | regex g => by simp [opened, skippableAll, offersAll]
  | slot _ _ _ => by simp [opened, skippableAll, offersAll]

theorem openedAll_reads : ∀ ps : List Pattern,
    skippableAll (openedAll ps) = skippableAll ps ∧ offersAll (openedAll ps) = offersAll ps
  | [] => ⟨rfl, rfl⟩
  | p :: ps => by
    obtain ⟨hskip, hoffers⟩ := opened_reads p
    obtain ⟨hskips, hoffersAll⟩ := openedAll_reads ps
    rw [openedAll, skippableAll_append, offersAll_append, hskip, hskips, hoffers, hoffersAll]
    exact ⟨rfl, rfl⟩

end

theorem Branched.opened {p q : Pattern} (h : p.Branched) (hq : q ∈ p.opened) : q.Branched := by
  induction h with
  | sequence _ ih =>
    rw [Pattern.opened, openedAll_eq_flatMap] at hq
    obtain ⟨p, hp, hq⟩ := List.mem_flatMap.1 hq
    exact ih p hp hq
  | literal t => exact List.mem_singleton.1 hq ▸ .literal t
  | optional inner => exact List.mem_singleton.1 hq ▸ .optional inner
  | choice some all => exact List.mem_singleton.1 hq ▸ .choice some all
  | regex g => exact List.mem_singleton.1 hq ▸ .regex g
  | slot ts accepts nullable => exact List.mem_singleton.1 hq ▸ .slot ts accepts nullable

/-- Up to the first part that must be present. -/
theorem offersAll_of_first {before after : List Pattern} {x : Pattern}
    (hbefore : ∀ p ∈ before, p.skippable = true) (hx : x.skippable = false) :
    offersAll (before ++ x :: after) = before.flatMap offers ++ x.offers := by
  rw [offersAll_append, if_pos (skippableAll_iff.2 hbefore), offersAll_of_skippable hbefore, offersAll]
  simp [hx]

end Pattern

namespace Tail

open Pattern

section

variable [RegexEngine]

/-- All that stands in the tail, one part after the other. -/
def inRow (tail : Tail) : List Pattern := tail.flatten.flatMap opened

def Skippable (tail : Tail) : Prop := ∀ ps ∈ tail, ∀ p ∈ ps, p.skippable = true

/-- The first part of the tail that must be present, and what stands in front of it. -/
def ClosedBy (tail : Tail) (before : List Pattern) (x : Pattern) : Prop :=
  (∀ p ∈ before, p.skippable = true) ∧ x.skippable = false ∧ before ++ [x] <+: tail.inRow

theorem skippable_iff {tail : Tail} : tail.Skippable ↔ skippableAll tail.inRow = true := by
  rw [inRow, ← openedAll_eq_flatMap, (openedAll_reads _).1, skippableAll_iff, List.forall_mem_flatten]
  rfl

theorem boundaries_eq (tail : Tail) :
    tail.boundaries =
      offersAll tail.inRow ++ if skippableAll tail.inRow then [.textEnd] else [] := by
  rw [inRow, ← openedAll_eq_flatMap, (openedAll_reads _).1, (openedAll_reads _).2, Tail.boundaries,
    boundariesAll_false]
  cases skippableAll tail.flatten with
  | false => simp
  | true => simp

theorem boundaries_of_skippable {tail : Tail} (h : tail.Skippable) :
    tail.boundaries = tail.inRow.flatMap offers ++ [.textEnd] := by
  have hrow := skippable_iff.1 h
  rw [boundaries_eq, if_pos hrow, offersAll_of_skippable (skippableAll_iff.1 hrow)]

theorem ClosedBy.not_skippable {tail : Tail} {before : List Pattern} {x : Pattern}
    (h : tail.ClosedBy before x) : ¬ tail.Skippable := by
  obtain ⟨-, hx, after, hrow⟩ := h
  rw [skippable_iff, skippableAll_iff]
  intro hall
  have hmem : x ∈ tail.inRow := by simp [← hrow]
  exact Bool.false_ne_true (hx.symm.trans (hall x hmem))

theorem exists_closedBy {tail : Tail} (h : ¬ tail.Skippable) : ∃ before x, tail.ClosedBy before x := by
  rw [skippable_iff, skippableAll_iff] at h
  push Not at h
  obtain ⟨p, hp, hskip⟩ := h
  have hfind : (tail.inRow.find? (!·.skippable)).isSome = true :=
    List.find?_isSome.2 ⟨p, hp, by simpa using hskip⟩
  obtain ⟨x, hx⟩ := Option.isSome_iff_exists.1 hfind
  obtain ⟨hx, before, after, hrow, hbefore⟩ := List.find?_eq_some_iff_append.1 hx
  refine ⟨before, x, fun p hp => ?_, ?_, after, ?_⟩
  · simpa using hbefore p hp
  · simpa using hx
  · rw [hrow, List.append_assoc]
    rfl

theorem boundaries_of_closedBy {tail : Tail} {before : List Pattern} {x : Pattern}
    (h : tail.ClosedBy before x) : tail.boundaries = before.flatMap offers ++ x.offers := by
  have hskip : ¬ skippableAll tail.inRow = true := fun hs => h.not_skippable (skippable_iff.2 hs)
  obtain ⟨hbefore, hx, after, hrow⟩ := h
  rw [boundaries_eq, if_neg hskip, ← hrow, List.append_assoc, List.singleton_append,
    offersAll_of_first hbefore hx, List.append_nil]

theorem textEnd_not_mem_flatMap (ps : List Pattern) : .textEnd ∉ ps.flatMap offers := by
  intro h
  obtain ⟨p, -, hp⟩ := List.mem_flatMap.1 h
  exact textEnd_not_mem_offers p hp

theorem textEnd_mem_boundaries_iff (tail : Tail) : .textEnd ∈ tail.boundaries ↔ tail.Skippable := by
  constructor
  · intro h
    by_contra hskip
    obtain ⟨before, x, hclosed⟩ := exists_closedBy hskip
    rw [boundaries_of_closedBy hclosed] at h
    rcases List.mem_append.1 h with h | h
    · exact textEnd_not_mem_flatMap before h
    · exact textEnd_not_mem_offers x h
  · intro h
    rw [boundaries_of_skippable h]
    exact List.mem_append_right _ (List.mem_singleton_self _)

theorem ClosedBy.offers_ne_nil {tail : Tail} (htail : ∀ ps ∈ tail, ∀ p ∈ ps, p.Branched)
    {before : List Pattern} {x : Pattern} (h : tail.ClosedBy before x) : x.offers ≠ [] := by
  obtain ⟨-, hx, after, hrow⟩ := h
  have hmem : x ∈ tail.inRow := by simp [← hrow]
  obtain ⟨p, hp, hopened⟩ := List.mem_flatMap.1 hmem
  obtain ⟨ps, hps, hp⟩ := List.mem_flatten.1 hp
  exact ((htail ps hps p hp).opened hopened).offers_ne_nil hx

theorem boundaries_ne_nil {tail : Tail} (htail : ∀ ps ∈ tail, ∀ p ∈ ps, p.Branched) :
    tail.boundaries ≠ [] := by
  by_cases hskip : tail.Skippable
  · exact List.ne_nil_of_mem ((textEnd_mem_boundaries_iff tail).2 hskip)
  · obtain ⟨before, x, hclosed⟩ := exists_closedBy hskip
    rw [boundaries_of_closedBy hclosed]
    exact List.append_ne_nil_of_right_ne_nil _ (hclosed.offers_ne_nil htail)

/-- All trees that are read have a branch in every choice. In front of a tail of such trees there always
is a boundary. The end of the text is one exactly if all of the tail can be left out; then it is the last,
and stands there once. Else the last ones are those of the first part that must be present, and nothing
after it adds any; they are the next blank alone if that part is a slot, and blanks in front of it add
nothing. -/
theorem boundaries_offered :
    (∀ types t p, ofText types t = .ok p → p.Branched) ∧
    ∀ tail : Tail, (∀ ps ∈ tail, ∀ p ∈ ps, p.Branched) →
      tail.boundaries ≠ [] ∧
      (.textEnd ∈ tail.boundaries ↔ tail.Skippable) ∧
      (tail.Skippable → tail.boundaries = tail.inRow.flatMap offers ++ [.textEnd] ∧
        .textEnd ∉ tail.inRow.flatMap offers) ∧
      (¬ tail.Skippable → ∃ before x, tail.ClosedBy before x) ∧
      ∀ before x, tail.ClosedBy before x →
        tail.boundaries = before.flatMap offers ++ x.offers ∧ x.offers ≠ [] ∧
        (∀ types accepts nullable, x = .slot types accepts nullable → x.offers = [.blank]) ∧
        ∀ t, .literal t ∈ before → (literal t).offers = [] := by
  refine ⟨fun types t p h => (readsCanonical_readWithin types _ 0 t p h).branched, fun tail htail => ?_⟩
  refine ⟨boundaries_ne_nil htail, textEnd_mem_boundaries_iff tail, fun hskip => ?_, exists_closedBy,
    fun before x hclosed => ?_⟩
  · exact ⟨boundaries_of_skippable hskip, textEnd_not_mem_flatMap _⟩
  · refine ⟨boundaries_of_closedBy hclosed, hclosed.offers_ne_nil htail, ?_, fun t ht => ?_⟩
    · rintro types accepts nullable rfl
      rfl
    · exact if_pos (hclosed.1 _ ht)

end

/-- A part that can be left out, a choice with an empty branch, and a blank, in front of a slot. -/
def looseText : Text := ['[', 'a', ']', '(', 'b', '|', ')', ' ', '%', 'n', '%', 'c']

def looseTree : Pattern :=
  .sequence [.optional (.literal ['a']), .choice [(0, .literal ['b']), (0, .literal [])],
    .literal [' '], .slot [⟨⟨1⟩, "n", true⟩] .both false, .literal ['c']]

/-- The tail behind a slot in brackets, in a pattern that goes on with the loose tree. -/
def looseTail : Tail := [[.literal [], .optional (.literal [' ', 'd'])], [looseTree]]

theorem boundaries_offered_loose :
    ofText shortName looseText = .ok looseTree ∧
    looseTail.boundaries =
      [.word ['d'] true false, .word ['a'] false false, .word ['b'] false false, .blank] ∧
    .textEnd ∉ looseTail.boundaries := by
  have hread : ofText shortName looseText = .ok looseTree := by rfl
  have htree : looseTree.Branched := boundaries_offered.1 _ _ _ hread
  have htail : ∀ ps ∈ looseTail, ∀ p ∈ ps, p.Branched := by
    simpa [looseTail] using ⟨⟨.literal _, .optional (.literal _)⟩, htree⟩
  obtain ⟨-, hend, -, -, hclosed⟩ := boundaries_offered.2 looseTail htail
  have hslot : looseTail.ClosedBy [.literal [], .optional (.literal [' ', 'd']), .optional (.literal ['a']),
      .choice [(0, .literal ['b']), (0, .literal [])], .literal [' ']]
      (.slot [⟨⟨1⟩, "n", true⟩] .both false) := by
    exact ⟨by decide +kernel, rfl, [.literal ['c']], rfl⟩
  exact ⟨hread, (hclosed _ _ hslot).1, hend.not.2 hslot.not_skippable⟩

end Tail

end Phrasebook
