import Phrasebook.Phrase

/-!
Phrases in buckets, one for each class of results. A bucket knows the phrases of its class, and in a
cache of limited size those of them that were of use, each with the time of a common clock at which it
was of use last. A search over several buckets puts what they remember in the order of the times.
-/

namespace Phrasebook

/-- A kind of cache for phrases with times. What it holds is listed with the latest use first; a
capacity of zero is no limit. -/
structure PhraseCache where
  State : Type
  fresh : (capacity : Nat) → State
  capacity : State → Nat
  put : State → (id time : Nat) → State
  entries : State → List (Nat × Nat)

/-- What a search needs to know of caches: putting a phrase moves it to the front, and in a cache that
is full the phrase drops out that was used longest ago. -/
structure PhraseCache.Lawful (C : PhraseCache) : Prop where
  capacity_fresh : ∀ n, C.capacity (C.fresh n) = n
  entries_fresh : ∀ n, C.entries (C.fresh n) = []
  capacity_put : ∀ s id time, C.capacity (C.put s id time) = C.capacity s
  put_known : ∀ s id time, id ∈ (C.entries s).map (·.1) →
    C.entries (C.put s id time) = (id, time) :: (C.entries s).filter (·.1 ≠ id)
  put_new : ∀ s id time, id ∉ (C.entries s).map (·.1) →
    (C.capacity s = 0 ∨ (C.entries s).length < C.capacity s) →
    C.entries (C.put s id time) = (id, time) :: C.entries s
  put_full : ∀ s id time, id ∉ (C.entries s).map (·.1) →
    C.capacity s ≠ 0 → (C.entries s).length = C.capacity s →
    C.entries (C.put s id time) = (id, time) :: (C.entries s).dropLast

structure ListCache where
  capacity : Nat
  entries : List (Nat × Nat)
  bounded : capacity = 0 ∨ entries.length ≤ capacity

def ListCache.others (s : ListCache) (id : Nat) : List (Nat × Nat) :=
  if id ∈ s.entries.map (·.1) then s.entries.filter (·.1 ≠ id)
  else if s.capacity ≠ 0 ∧ s.entries.length = s.capacity then s.entries.dropLast
  else s.entries

theorem ListCache.length_others_lt (s : ListCache) (id : Nat) (h : s.capacity ≠ 0) :
    (s.others id).length < s.capacity := by
  have hlength := s.bounded.resolve_left h
  unfold others
  split
  · rename_i hid
    obtain ⟨q, hq, rfl⟩ := List.mem_map.1 hid
    have : (s.entries.filter (·.1 ≠ q.1)).length < s.entries.length :=
      List.length_filter_lt_length_iff_exists.2 ⟨q, hq, by simp⟩
    omega
  · split
    · rw [List.length_dropLast]
      omega
    · rename_i hroom
      exact Nat.lt_of_le_of_ne hlength fun hfull => hroom ⟨h, hfull⟩

def PhraseCache.lists : PhraseCache where
  State := ListCache
  fresh capacity := ⟨capacity, [], Or.inr (Nat.zero_le capacity)⟩
  capacity := ListCache.capacity
  put s id time := ⟨s.capacity, (id, time) :: s.others id,
    (Nat.eq_zero_or_pos s.capacity).imp_right fun h =>
      s.length_others_lt id (Nat.ne_of_gt h)⟩
  entries := ListCache.entries

structure Bucket (C : PhraseCache) where
  members : List Nat
  recent : C.State

variable [RegexEngine]

structure Registry (C : PhraseCache) (F : Type) where
  phrases : List (Phrase F)
  buckets : List (ClassId × Bucket C)
  clock : Nat

namespace Registry

variable {C : PhraseCache} {F : Type}

def addMember (capacity : Nat) (c : ClassId) (id : Nat) :
    List (ClassId × Bucket C) → List (ClassId × Bucket C)
  | [] => [(c, ⟨[id], C.fresh capacity⟩)]
  | (d, b) :: bs =>
    if d = c then (d, { b with members := b.members ++ [id] }) :: bs
    else (d, b) :: addMember capacity c id bs

def ofList (phrases : List (Phrase F)) (capacity : Nat) : Registry C F :=
  let sorted := phrases.mergeSort Phrase.goesFirst
  ⟨sorted, sorted.zipIdx.foldl (fun bs (p, id) => addMember capacity p.returns id bs) [], 0⟩

def promote (r : Registry C F) (id : Nat) : Registry C F :=
  match r.phrases[id]? with
  | none => r
  | some p =>
    match r.buckets.lookup p.returns with
    | none => r
    | some _ =>
      { r with
        buckets := r.buckets.map fun (c, b) =>
          if c = p.returns then (c, { b with recent := C.put b.recent id (r.clock + 1) }) else (c, b)
        clock := r.clock + 1 }

/-- The phrases to try, in order, among those of an accepted class; `scan` lists the buckets in the
order in which they are met. -/
def candidates (r : Registry C F) (scan : List (ClassId × Bucket C)) (accepts : ClassId → Bool) :
    List Nat :=
  let accepted := (scan.filter fun (c, _) => accepts c).map (·.2)
  let recent := (accepted.flatMap fun b => C.entries b.recent).mergeSort fun x y => y.2 ≤ x.2
  let ordered := (recent.map (·.1)).eraseDups
  let rest := (accepted.flatMap (·.members)).filter fun id => !ordered.contains id
  (ordered ++ rest.mergeSort fun i j => i ≤ j).filter fun id => r.phrases[id]?.isSome

end Registry

end Phrasebook
