import Phrasebook.Proofs.Matching.Sound

/-!
How much a match finds. Every way through a pattern passes a number of slots and of regular expressions
within bounds that the pattern sets, and joins marks in one of finitely many ways. A match finds one
expression for each slot and one capture for each regular expression on its way; what failed attempts had
found before does not count.
-/

namespace Phrasebook

variable [RegexEngine]

namespace Matching

namespace Item

def slots : Item → Nat
  | literal _ => 0
  | regex _ => 0
  | slot _ _ => 1

def regexes : Item → Nat
  | literal _ => 0
  | regex _ => 1
  | slot _ _ => 0

end Item

def tally (weight : Item → Nat) (items : List Item) : Nat := (items.map weight).sum

theorem tally_append (weight : Item → Nat) (items others : List Item) :
    tally weight (items ++ others) = tally weight items + tally weight others := by
  simp [tally]

end Matching

namespace Pattern

open Matching

/-! ## Bounds -/

section

variable (weight : Item → Nat)

mutual

/-- The least weight of a way: optional parts are left out, and the lightest branch is taken. -/
def fewest : Pattern → Nat
  | literal t => weight (.literal t)
  | sequence ps => fewestAll ps
  | optional _ => 0
  | choice bs => fewestAny bs
  | regex g => weight (.regex g)
  | slot types accepts _ => weight (.slot types accepts)

def fewestAll : List Pattern → Nat
  | [] => 0
  | p :: ps => fewest p + fewestAll ps

def fewestAny : List (Int32 × Pattern) → Nat
  | [] => 0
  | [(_, p)] => fewest p
  | (_, p) :: b :: bs => min (fewest p) (fewestAny (b :: bs))

end

mutual

/-- The greatest weight of a way: optional parts are taken, and the heaviest branch. -/
def most : Pattern → Nat
  | literal t => weight (.literal t)
  | sequence ps => mostAll ps
  | optional p => most p
  | choice bs => mostAny bs
  | regex g => weight (.regex g)
  | slot types accepts _ => weight (.slot types accepts)

def mostAll : List Pattern → Nat
  | [] => 0
  | p :: ps => most p + mostAll ps

def mostAny : List (Int32 × Pattern) → Nat
  | [] => 0
  | (_, p) :: bs => max (most p) (mostAny bs)

end

mutual

theorem tally_way : ∀ (p : Pattern) (items : List Item) (m : Int32), Way p items m →
    p.fewest weight ≤ tally weight items ∧ tally weight items ≤ p.most weight
  | .literal t, items, m, h => by
    cases h
    simp [fewest, most, tally]
  | .sequence ps, items, m, h => by
    cases h with
    | sequence h => exact tally_wayAll ps items m h
  | .optional p, items, m, h => by
    refine ⟨Nat.zero_le _, ?_⟩
    cases h with
    | skipped => exact Nat.zero_le _
    | taken h => exact (tally_way p items m h).2
  | .choice bs, items, m, h => by
    cases h with
    | branch hb h => exact tally_branch bs _ _ hb items _ h
  | .regex g, items, m, h => by
    cases h
    simp [fewest, most, tally]
  | .slot types accepts nullable, items, m, h => by
    cases h
    simp [fewest, most, tally]

theorem tally_wayAll : ∀ (ps : List Pattern) (items : List Item) (m : Int32), WayAll ps items m →
    fewestAll weight ps ≤ tally weight items ∧ tally weight items ≤ mostAll weight ps
  | [], items, m, h => by
    cases h
    simp [fewestAll, mostAll, tally]
  | p :: ps, items, m, h => by
    cases h with
    | cons h hs =>
      have hp := tally_way p _ _ h
      have hps := tally_wayAll ps _ _ hs
      rw [tally_append, fewestAll, mostAll]
      exact ⟨Nat.add_le_add hp.1 hps.1, Nat.add_le_add hp.2 hps.2⟩

theorem tally_branch : ∀ (bs : List (Int32 × Pattern)) (mark : Int32) (p : Pattern), (mark, p) ∈ bs →
    ∀ (items : List Item) (m : Int32), Way p items m →
      fewestAny weight bs ≤ tally weight items ∧ tally weight items ≤ mostAny weight bs
  | [], mark, p, hb, items, m, h => absurd hb List.not_mem_nil
  | [(_, q)], mark, p, hb, items, m, h => by
    cases List.mem_singleton.1 hb
    have hp := tally_way q items m h
    exact ⟨hp.1, le_max_of_le_left hp.2⟩
  | (_, q) :: b :: bs, mark, p, hb, items, m, h => by
    rw [fewestAny, mostAny]
    rcases List.mem_cons.1 hb with heq | hb
    · cases heq
      have hp := tally_way q items m h
      exact ⟨min_le_of_left_le hp.1, le_max_of_le_left hp.2⟩
    · have hp := tally_branch (b :: bs) mark p hb items m h
      exact ⟨min_le_of_right_le hp.1, le_max_of_le_right hp.2⟩

end

end

mutual

/-- The greatest number of slots on a way is that of the pattern. -/
theorem most_slots : ∀ p : Pattern, p.most Item.slots = p.slotCount
  | .literal _ => rfl
  | .sequence ps => mostAll_slots ps
  | .optional p => most_slots p
  | .choice bs => mostAny_slots bs
  | .regex _ => rfl
  | .slot _ _ _ => rfl

theorem mostAll_slots : ∀ ps : List Pattern, mostAll Item.slots ps = slotCountAll ps
  | [] => rfl
  | p :: ps => by rw [mostAll, slotCountAll, most_slots p, mostAll_slots ps]

theorem mostAny_slots : ∀ bs : List (Int32 × Pattern), mostAny Item.slots bs = slotCountWidest bs
  | [] => rfl
  | (_, p) :: bs => by rw [mostAny, slotCountWidest, most_slots p, mostAny_slots bs]

end

/-! ## Marks -/

mutual

/-- What the marks on a way may come to. -/
def marks : Pattern → List Int32
  | literal _ => [0]
  | sequence ps => marksAll ps
  | optional p => 0 :: marks p
  | choice bs => marksAny bs
  | regex _ => [0]
  | slot _ _ _ => [0]

def marksAll : List Pattern → List Int32
  | [] => [0]
  | p :: ps => (marks p).flatMap fun m => (marksAll ps).map (m ^^^ ·)

def marksAny : List (Int32 × Pattern) → List Int32
  | [] => []
  | (mark, p) :: bs => (marks p).map (· ^^^ mark) ++ marksAny bs

end

mutual

theorem mem_marks : ∀ (p : Pattern) (items : List Item) (m : Int32), Way p items m → m ∈ p.marks
  | .literal t, items, m, h => by
    cases h
    exact List.mem_singleton_self 0
  | .sequence ps, items, m, h => by
    cases h with
    | sequence h => exact mem_marksAll ps items m h
  | .optional p, items, m, h => by
    cases h with
    | skipped => exact List.mem_cons_self
    | taken h => exact List.mem_cons_of_mem 0 (mem_marks p items m h)
  | .choice bs, items, m, h => by
    cases h with
    | branch hb h => exact mem_marksAny bs _ _ hb items _ h
  | .regex g, items, m, h => by
    cases h
    exact List.mem_singleton_self 0
  | .slot types accepts nullable, items, m, h => by
    cases h
    exact List.mem_singleton_self 0

theorem mem_marksAll : ∀ (ps : List Pattern) (items : List Item) (m : Int32), WayAll ps items m →
    m ∈ marksAll ps
  | [], items, m, h => by
    cases h
    exact List.mem_singleton_self 0
  | p :: ps, items, m, h => by
    cases h with
    | cons h hs =>
      have hp := mem_marks p _ _ h
      have hps := mem_marksAll ps _ _ hs
      rw [marksAll]
      exact List.mem_flatMap.2 ⟨_, hp, List.mem_map.2 ⟨_, hps, rfl⟩⟩

theorem mem_marksAny : ∀ (bs : List (Int32 × Pattern)) (mark : Int32) (p : Pattern), (mark, p) ∈ bs →
    ∀ (items : List Item) (m : Int32), Way p items m → m ^^^ mark ∈ marksAny bs
  | [], mark, p, hb, items, m, h => absurd hb List.not_mem_nil
  | (_, q) :: bs, mark, p, hb, items, m, h => by
    rw [marksAny]
    rcases List.mem_cons.1 hb with heq | hb
    · cases heq
      exact List.mem_append_left _ (List.mem_map.2 ⟨m, mem_marks q items m h, rfl⟩)
    · exact List.mem_append_right _ (mem_marksAny bs mark p hb items m h)

end

end Pattern

/-! ## What a match finds -/

namespace Matching

/-- An attempt that comes from another by a way: it has gained an expression for each slot, a capture for
each regular expression, and the marks. -/
def Gains (way : List Item → Int32 → Prop) (a a' : Attempt) : Prop :=
  ∃ items f, way items f.mark ∧ f.expressions.length = tally Item.slots items ∧
    f.captures.length = tally Item.regexes items ∧ a' = a.merge f

theorem Gains.mono {way way' : List Item → Int32 → Prop} (h : ∀ items m, way items m → way' items m)
    {a a' : Attempt} (ha : Gains way a a') : Gains way' a a' := by
  obtain ⟨items, f, hway, hes, hcs, rfl⟩ := ha
  exact ⟨items, f, h items f.mark hway, hes, hcs, rfl⟩

/-- What a branch gains is what the attempt gains that merges it. -/
theorem Gains.of_branch {way : List Item → Int32 → Prop} {a b : Attempt} (h : Gains way a.branch b) :
    Gains way a (a.merge b.findings) := by
  obtain ⟨items, f, hway, hes, hcs, rfl⟩ := h
  exact ⟨items, f, hway, hes, hcs, by rw [Attempt.branch_merge_findings]⟩

theorem Gains.append {p : Pattern} {ps : List Pattern} {a b c : Attempt} (h : Gains (Way p) a b)
    (hs : Gains (WayAll ps) b c) : Gains (WayAll (p :: ps)) a c := by
  obtain ⟨items, f, hway, hes, hcs, rfl⟩ := h
  obtain ⟨others, g, hways, hes', hcs', rfl⟩ := hs
  refine ⟨items ++ others, f.append g, .cons hway hways, ?_, ?_, a.merge_merge f g⟩
  · rw [tally_append, ← hes, ← hes']
    exact List.length_append
  · rw [tally_append, ← hcs, ← hcs']
    exact List.length_append

theorem Gains.addMark {bs : List (Int32 × Pattern)} {mark : Int32} {p : Pattern} (hp : (mark, p) ∈ bs)
    {a a' : Attempt} (h : Gains (Way p) a a') : Gains (Way (.choice bs)) a (a'.addMark mark) := by
  obtain ⟨items, f, hway, hes, hcs, rfl⟩ := h
  refine ⟨items, f.append ⟨[], [], mark⟩, .branch hp hway, ?_, ?_, a.merge_merge f _⟩
  · simpa [Findings.append] using hes
  · simpa [Findings.append] using hcs

mutual

theorem node_gains (resolve : Resolver) : ∀ (p : Pattern) (tail : Tail) (i : Nat) (a : Attempt) (j : Nat)
    (a' : Attempt), (node resolve p tail i a).Finds (j, a') → Gains (Way p) a a'
  | .literal t, tail, i, a, j, a', h => by
    obtain ⟨stop, -, h⟩ := h.bind
    cases h.pure
    exact ⟨_, .none, .literal t, rfl, rfl, a.merge_none.symm⟩
  | .sequence ps, tail, i, a, j, a', h =>
    (parts_gains resolve ps tail i a j a' h).mono fun _ _ => .sequence
  | .optional p, tail, i, a, j, a', h => by
    rcases Search.Finds.orElse h with h | h
    · obtain ⟨⟨stop, b⟩, hb, h⟩ := h.bind
      cases h.pure
      exact (node_gains resolve p tail i a.branch j b hb).of_branch.mono fun _ _ => .taken
    · cases h.pure
      exact ⟨_, .none, .skipped p, rfl, rfl, a.merge_none.symm⟩
  | .choice bs, tail, i, a, j, a', h => by
    obtain ⟨mark, p, hp, b, hb, rfl⟩ := branches_gains resolve bs tail i a j a' h
    exact hb.addMark hp
  | .regex g, tail, i, a, j, a', h => by
    obtain ⟨⟨stop, c⟩, -, h⟩ := h.bind
    cases h.pure
    exact ⟨_, _, .regex g, rfl, rfl, rfl⟩
  | .slot types accepts nullable, tail, i, a, j, a', h => by
    obtain ⟨⟨stop, e⟩, -, h⟩ := h.bind
    cases h.pure
    exact ⟨_, _, .slot types accepts nullable, rfl, rfl, rfl⟩

theorem parts_gains (resolve : Resolver) : ∀ (ps : List Pattern) (tail : Tail) (i : Nat) (a : Attempt)
    (j : Nat) (a' : Attempt), (parts resolve ps tail i a).Finds (j, a') → Gains (WayAll ps) a a'
  | [], tail, i, a, j, a', h => by
    cases Search.Finds.pure h
    exact ⟨_, .none, .nil, rfl, rfl, a.merge_none.symm⟩
  | p :: ps, tail, i, a, j, a', h => by
    obtain ⟨⟨k, b⟩, hb, h⟩ := Search.Finds.bind h
    exact (node_gains resolve p (ps :: tail) i a k b hb).append
      (parts_gains resolve ps tail k b j a' h)

/-- One branch is taken, and its mark is added; the branches tried before it leave nothing behind. -/
theorem branches_gains (resolve : Resolver) : ∀ (bs : List (Int32 × Pattern)) (tail : Tail) (i : Nat)
    (a : Attempt) (j : Nat) (a' : Attempt), (branches resolve bs tail i a).Finds (j, a') →
      ∃ mark p, (mark, p) ∈ bs ∧ ∃ b, Gains (Way p) a b ∧ a' = b.addMark mark
  | [], tail, i, a, j, a', h => absurd h (Search.not_finds_failure _)
  | (mark, p) :: bs, tail, i, a, j, a', h => by
    rcases Search.Finds.orElse h with h | h
    · obtain ⟨⟨stop, b⟩, hb, h⟩ := h.bind
      cases h.pure
      exact ⟨mark, p, List.mem_cons_self, _, (node_gains resolve p tail i a.branch j b hb).of_branch, rfl⟩
    · obtain ⟨mark', p', hp, hrest⟩ := branches_gains resolve bs tail i a j a' h
      exact ⟨mark', p', List.mem_cons_of_mem _ hp, hrest⟩

end

end Matching

end Phrasebook
