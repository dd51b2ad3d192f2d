import Mathlib.Data.List.Perm.Basic
import Mathlib.Logic.Function.Basic
import Phrasebook.Proofs.Phrase
import Phrasebook.Regex.Threads
import Phrasebook.Registry

/-!
Buckets do what one list of recent phrases does. What a bucket remembers is the part of the list that
has its class, and the times go down along the list; so the times put the parts together again,
whatever the order in which the buckets are met.
-/

namespace Phrasebook

theorem PhraseCache.lists_lawful : PhraseCache.lists.Lawful where
  capacity_fresh _ := rfl
  entries_fresh _ := rfl
  capacity_put _ _ _ := rfl
  put_known s id time h := by
    have : s.others id = s.entries.filter (·.1 ≠ id) := if_pos h
    exact congrArg _ this
  put_new s id time h hroom := by
    have hnotFull : ¬(s.capacity ≠ 0 ∧ s.entries.length = s.capacity) := fun ⟨hlimited, hfull⟩ =>
      Nat.ne_of_lt (hroom.resolve_left hlimited) hfull
    have : s.others id = s.entries := (if_neg h).trans (if_neg hnotFull)
    exact congrArg _ this
  put_full s id time h hlimited hfull := by
    have : s.others id = s.entries.dropLast := (if_neg h).trans (if_pos ⟨hlimited, hfull⟩)
    exact congrArg _ this

namespace Registry

variable {C : PhraseCache}

/-! ## Buckets -/

theorem map_fst_addMember (capacity : Nat) (c : ClassId) (id : Nat)
    (buckets : List (ClassId × Bucket C)) :
    (addMember capacity c id buckets).map (·.1) =
      if c ∈ buckets.map (·.1) then buckets.map (·.1) else buckets.map (·.1) ++ [c] := by
  induction buckets with
  | nil => rfl
  | cons b bs ih =>
    rw [addMember]
    split
    · rename_i hc
      simp [hc]
    · rename_i hc
      rw [List.map_cons, ih]
      have : c ≠ b.1 := fun h => hc h.symm
      simp only [List.map_cons, List.mem_cons, this, false_or]
      split <;> rfl

theorem mem_addMember {capacity : Nat} {c : ClassId} {id : Nat} {buckets : List (ClassId × Bucket C)}
    (hclasses : (buckets.map (·.1)).Nodup) {q : ClassId × Bucket C}
    (hq : q ∈ addMember capacity c id buckets) :
    (q ∈ buckets ∧ q.1 ≠ c) ∨
      (∃ b, (c, b) ∈ buckets ∧ q = (c, { b with members := b.members ++ [id] })) ∨
      (c ∉ buckets.map (·.1) ∧ q = (c, ⟨[id], C.fresh capacity⟩)) := by
  induction buckets with
  | nil => exact Or.inr (Or.inr ⟨by simp, List.mem_singleton.1 hq⟩)
  | cons b bs ih =>
    obtain ⟨hb, hclasses⟩ := List.nodup_cons.1 hclasses
    rw [addMember] at hq
    split at hq
    · rename_i hc
      rcases List.mem_cons.1 hq with rfl | hq
      · refine Or.inr (Or.inl ⟨b.2, ?_, by rw [hc]⟩)
        rw [← hc]
        exact List.mem_cons_self
      · refine Or.inl ⟨List.mem_cons_of_mem b hq, ?_⟩
        rintro rfl
        have hmem : q.1 ∈ bs.map (·.1) := List.mem_map_of_mem hq
        rw [← hc] at hmem
        exact hb hmem
    · rename_i hc
      rcases List.mem_cons.1 hq with rfl | hq
      · exact Or.inl ⟨List.mem_cons_self, hc⟩
      · rcases ih hclasses hq with ⟨hq, hne⟩ | ⟨d, hd, rfl⟩ | ⟨hnot, rfl⟩
        · exact Or.inl ⟨List.mem_cons_of_mem b hq, hne⟩
        · exact Or.inr (Or.inl ⟨d, List.mem_cons_of_mem b hd, rfl⟩)
        · refine Or.inr (Or.inr ⟨?_, rfl⟩)
          rw [List.map_cons, List.mem_cons, not_or]
          exact ⟨fun h => hc h.symm, hnot⟩

/-- The ids of a bucket after one of them was promoted. -/
def refreshed (capacity id : Nat) (ids : List Nat) : List Nat :=
  if capacity = 0 then id :: ids.filter (· ≠ id) else (id :: ids.filter (· ≠ id)).take capacity

section

variable {capacity id : Nat} {ids : List Nat}

theorem refreshed_of_mem (hid : id ∈ ids) (hlimit : capacity ≠ 0 → ids.length ≤ capacity) :
    refreshed capacity id ids = id :: ids.filter (· ≠ id) := by
  have hshort : (ids.filter (· ≠ id)).length < ids.length :=
    List.length_filter_lt_length_iff_exists.2 ⟨id, hid, by simp⟩
  unfold refreshed
  split
  · rfl
  · rename_i h
    exact List.take_of_length_le (Nat.lt_of_lt_of_le hshort (hlimit h))

theorem refreshed_of_room (hid : id ∉ ids) (hroom : capacity = 0 ∨ ids.length < capacity) :
    refreshed capacity id ids = id :: ids := by
  unfold refreshed
  rw [PhraseTable.filter_ne_of_not_mem hid]
  split
  · rfl
  · rename_i h
    exact List.take_of_length_le (hroom.resolve_left h)

theorem refreshed_of_full (hid : id ∉ ids) (h : capacity ≠ 0) (hfull : ids.length = capacity) :
    refreshed capacity id ids = id :: ids.dropLast := by
  obtain ⟨n, rfl⟩ := Nat.exists_eq_succ_of_ne_zero h
  rw [refreshed, if_neg h, PhraseTable.filter_ne_of_not_mem hid, List.dropLast_eq_take, hfull]
  rfl

end

/-- A cache does to its entries what `refreshed` does to their ids. -/
theorem entries_put (hC : C.Lawful) {s : C.State} {ids : List Nat}
    (hentries : C.entries s = ids.map fun id => (id, time id))
    (hlimit : C.capacity s ≠ 0 → ids.length ≤ C.capacity s) (id now : Nat) :
    C.entries (C.put s id now) =
      (refreshed (C.capacity s) id ids).map fun j => (j, Function.update time id now j) := by
  have hids : (C.entries s).map (·.1) = ids := by
    rw [hentries, List.map_map]
    exact List.map_id ids
  have hlength : (C.entries s).length = ids.length := by rw [hentries, List.length_map]
  have hother {l : List Nat} (hl : id ∉ l) :
      l.map (fun j => (j, Function.update time id now j)) = l.map fun j => (j, time j) :=
    List.map_congr_left fun j hj => by
      rw [Function.update_of_ne]
      rintro rfl
      exact hl hj
  have hself : (id, Function.update time id now id) = (id, now) := by rw [Function.update_self]
  by_cases hid : id ∈ ids
  · have hnot : id ∉ ids.filter (· ≠ id) := by simp
    rw [hC.put_known s id now (by rwa [hids]), refreshed_of_mem hid hlimit, List.map_cons, hself,
      hother hnot, hentries, List.filter_map]
    rfl
  · by_cases hroom : C.capacity s = 0 ∨ ids.length < C.capacity s
    · rw [hC.put_new s id now (by rwa [hids]) (by rwa [hlength]), hentries,
        refreshed_of_room hid hroom, List.map_cons, hself, hother hid]
    · obtain ⟨h, hfull⟩ := not_or.1 hroom
      have hfull : ids.length = C.capacity s := Nat.le_antisymm (hlimit h) (Nat.le_of_not_lt hfull)
      rw [hC.put_full s id now (by rwa [hids]) h (by rwa [hlength]), hentries,
        refreshed_of_full hid h hfull, List.map_cons, hself,
        hother fun hmem => hid (List.dropLast_subset ids hmem), List.map_dropLast]

/-- The buckets after a phrase of class `c` was put into its cache. -/
def touch (c : ClassId) (id now : Nat) (buckets : List (ClassId × Bucket C)) :
    List (ClassId × Bucket C) :=
  buckets.map fun b =>
    if b.1 = c then (b.1, { b.2 with recent := C.put b.2.recent id now }) else b

theorem map_fst_touch (c : ClassId) (id now : Nat) (buckets : List (ClassId × Bucket C)) :
    (touch c id now buckets).map (·.1) = buckets.map (·.1) := by
  unfold touch
  rw [List.map_map]
  refine List.map_congr_left fun b _ => ?_
  dsimp only [Function.comp]
  split <;> rfl

theorem mem_touch {c : ClassId} {id now : Nat} {buckets : List (ClassId × Bucket C)}
    {q : ClassId × Bucket C} (hq : q ∈ touch c id now buckets) :
    (q ∈ buckets ∧ q.1 ≠ c) ∨
      ∃ b, (c, b) ∈ buckets ∧ q = (c, { b with recent := C.put b.recent id now }) := by
  obtain ⟨b, hb, rfl⟩ := List.mem_map.1 hq
  by_cases hc : b.1 = c
  · subst hc
    rw [if_pos rfl]
    exact Or.inr ⟨b.2, hb, rfl⟩
  · rw [if_neg hc]
    exact Or.inl ⟨hb, hc⟩

/-! ## Orders -/

/-- What was promoted last is the latest, and the others keep their times. -/
theorem descending_update {recent : List Nat} {now : Nat}
    (h : recent.Pairwise fun i j => time j < time i) (hpast : ∀ id ∈ recent, time id < now)
    (id : Nat) : (id :: recent.filter (· ≠ id)).Pairwise fun i j =>
      Function.update time id now j < Function.update time id now i := by
  have hother {j : Nat} (hj : j ∈ recent.filter (· ≠ id)) :
      Function.update time id now j = time j :=
    Function.update_of_ne (by simpa using (List.mem_filter.1 hj).2) ..
  refine List.pairwise_cons.2 ⟨fun j hj => ?_, ?_⟩
  · rw [Function.update_self, hother hj]
    exact hpast j (List.mem_of_mem_filter hj)
  · refine (h.filter _).imp_of_mem fun {i j} hi hj hlt => ?_
    rwa [hother hi, hother hj]

theorem eraseDups_of_nodup {l : List Nat} (hl : l.Nodup) : l.eraseDups = l := by
  induction l with
  | nil => rfl
  | cons id l ih =>
    obtain ⟨hid, hl⟩ := List.nodup_cons.1 hl
    have hfilter : l.filter (fun j => !j == id) = l := by
      simpa using PhraseTable.filter_ne_of_not_mem hid
    rw [List.eraseDups_cons, hfilter, ih hl]

theorem mergeSort_eq_of_perm {α : Type} {le : α → α → Bool}
    (htrans : ∀ a b c, le a b = true → le b c = true → le a c = true)
    (htotal : ∀ a b, (le a b || le b a) = true) {l m : List α} (hperm : l.Perm m)
    (hsorted : m.Pairwise fun a b => le a b = true)
    (hanti : ∀ a b, a ∈ m → b ∈ m → le a b = true → le b a = true → a = b) : l.mergeSort le = m := by
  have hsort : (l.mergeSort le).Perm m := (List.mergeSort_perm l le).trans hperm
  exact hsort.eq_of_pairwise (fun a b ha => hanti a b (hsort.subset ha))
    (List.pairwise_mergeSort htrans htotal l) hsorted

/-- The times put the parts together again. -/
theorem mergeSort_entries {recent : List Nat} {time : Nat → Nat}
    (hrecent : recent.Pairwise fun i j => time j < time i) {entries : List (Nat × Nat)}
    (hperm : entries.Perm (recent.map fun id => (id, time id))) :
    entries.mergeSort (fun x y => y.2 ≤ x.2) = recent.map fun id => (id, time id) := by
  have hinj : (recent.map time).Nodup :=
    List.pairwise_map.2 (hrecent.imp fun h => Nat.ne_of_gt h)
  refine mergeSort_eq_of_perm ?_ ?_ hperm ?_ ?_
  · intro x y z hxy hyz
    simp only [decide_eq_true_eq] at hxy hyz ⊢
    omega
  · intro x y
    simp only [Bool.or_eq_true, decide_eq_true_eq]
    omega
  · rw [List.pairwise_map]
    exact hrecent.imp fun h => decide_eq_true (Nat.le_of_lt h)
  · intro x y hx hy hxy hyx
    obtain ⟨i, hi, rfl⟩ := List.mem_map.1 hx
    obtain ⟨j, hj, rfl⟩ := List.mem_map.1 hy
    simp only [decide_eq_true_eq] at hxy hyx
    rw [List.inj_on_of_nodup_map hinj hi hj (Nat.le_antisymm hyx hxy)]

theorem mergeSort_range {size : Nat} {p : Nat → Bool} {ids : List Nat}
    (hperm : ids.Perm ((List.range size).filter p)) :
    ids.mergeSort (fun i j => i ≤ j) = (List.range size).filter p := by
  refine mergeSort_eq_of_perm ?_ ?_ hperm ?_ ?_
  · intro i j k hij hjk
    simp only [decide_eq_true_eq] at hij hjk ⊢
    omega
  · intro i j
    simp only [Bool.or_eq_true, decide_eq_true_eq]
    omega
  · exact (List.pairwise_lt_range.filter p).imp fun h => decide_eq_true (Nat.le_of_lt h)
  · intro i j _ _ hij hji
    simp only [decide_eq_true_eq] at hij hji
    omega

section

variable [RegexEngine] {F : Type}

/-! ## The buckets at the beginning -/

/-- The buckets hold the phrases of a list, each in that of its class, and remember nothing. -/
structure Gathered (capacity : Nat) (phrases : List (Phrase F × Nat))
    (buckets : List (ClassId × Bucket C)) : Prop where
  classes : (buckets.map (·.1)).Nodup
  known : ∀ q ∈ phrases, q.1.returns ∈ buckets.map (·.1)
  members : ∀ b ∈ buckets,
    b.2.members = (phrases.filter fun q => q.1.returns == b.1).map (·.2)
  fresh : ∀ b ∈ buckets, b.2.recent = C.fresh capacity

theorem Gathered.snoc {capacity : Nat} {phrases : List (Phrase F × Nat)}
    {buckets : List (ClassId × Bucket C)} (h : Gathered capacity phrases buckets)
    (q : Phrase F × Nat) :
    Gathered capacity (phrases ++ [q]) (addMember capacity q.1.returns q.2 buckets) where
  classes := by
    rw [map_fst_addMember]
    split
    · exact h.classes
    · rename_i hnew
      exact List.nodup_append.2 ⟨h.classes, by simp, by
        rintro c hc d hd rfl
        rw [List.mem_singleton.1 hd] at hc
        exact hnew hc⟩
  known := by
    intro q' hq'
    rw [map_fst_addMember]
    rcases List.mem_append.1 hq' with hq' | hq'
    · have := h.known q' hq'
      split
      · exact this
      · exact List.mem_append_left _ this
    · rw [List.mem_singleton.1 hq']
      split
      · assumption
      · simp
  members := by
    intro b hb
    rw [List.filter_append, List.map_append]
    rcases mem_addMember h.classes hb with ⟨hb, hne⟩ | ⟨d, hd, rfl⟩ | ⟨hnew, rfl⟩
    · rw [h.members b hb, List.filter_cons, if_neg (by simpa using hne.symm)]
      simp
    · have hmembers := h.members _ hd
      simp only at hmembers
      simp [hmembers]
    · have hnone : phrases.filter (fun q' => q'.1.returns == q.1.returns) = [] := by
        rw [List.filter_eq_nil_iff]
        intro q' hq' heq
        have heq : q'.1.returns = q.1.returns := by simpa using heq
        exact hnew (heq ▸ h.known q' hq')
      simp [hnone]
  fresh := by
    intro b hb
    rcases mem_addMember h.classes hb with ⟨hb, -⟩ | ⟨d, hd, rfl⟩ | ⟨-, rfl⟩
    · exact h.fresh b hb
    · exact h.fresh (q.1.returns, d) hd
    · rfl

theorem gathered_foldl (capacity : Nat) (phrases : List (Phrase F × Nat)) :
    Gathered (C := C) capacity phrases
      (phrases.foldl (fun bs (p, id) => addMember capacity p.returns id bs) []) := by
  induction phrases using List.reverseRecOn with
  | nil => exact ⟨List.nodup_nil, by simp, by simp, by simp⟩
  | append_singleton phrases q ih =>
    rw [List.foldl_append]
    exact ih.snoc q

/-! ## Buckets and one list -/

/-- The buckets remember what the list of recent phrases does; `time` tells when each was of use
last. -/
structure Remembers (C : PhraseCache) (r : Registry C F) (t : PhraseTable F) (u : Usage)
    (time : Nat → Nat) : Prop where
  phrases : r.phrases = t.phrases
  classes : (r.buckets.map (·.1)).Nodup
  known : ∀ (id : Nat) (p : Phrase F), t.phrases[id]? = some p → p.returns ∈ r.buckets.map (·.1)
  members : ∀ b ∈ r.buckets, b.2.members = (List.range t.size).filter (t.admits (· == b.1))
  capacity : ∀ b ∈ r.buckets, C.capacity b.2.recent = t.capacity
  entries : ∀ b ∈ r.buckets, C.entries b.2.recent =
    (u.recent.filter (t.admits (· == b.1))).map fun id => (id, time id)
  valid : ∀ id ∈ u.recent, id < t.size
  descending : u.recent.Pairwise fun i j => time j < time i
  past : ∀ id ∈ u.recent, time id ≤ r.clock
  limit : t.capacity ≠ 0 → ∀ c, (u.recent.filter (t.admits (· == c))).length ≤ t.capacity

theorem map_snd_filter_zipIdx (t : PhraseTable F) (c : ClassId) :
    (t.phrases.zipIdx.filter fun q => q.1.returns == c).map (·.2) =
      (List.range t.size).filter (t.admits (· == c)) := by
  have hrange : List.range t.size = t.phrases.zipIdx.map (·.2) := by
    rw [List.zipIdx_map_snd, ← List.range_eq_range']
    rfl
  rw [hrange, List.filter_map]
  congr 1
  refine List.filter_congr fun q hq => ?_
  simp [PhraseTable.admits, List.mem_zipIdx_iff_getElem?.1 hq]

theorem remembers_ofList (hC : C.Lawful) (phrases : List (Phrase F)) (capacity : Nat) :
    Remembers C (ofList phrases capacity) (PhraseTable.ofList phrases capacity)
      (PhraseTable.ofList phrases capacity).unused (fun _ => 0) := by
  have h := gathered_foldl (C := C) capacity (phrases.mergeSort Phrase.goesFirst).zipIdx
  exact {
    phrases := rfl
    classes := h.classes
    known := fun id p hp => h.known (p, id) (List.mk_mem_zipIdx_iff_getElem?.2 hp)
    members := by
      intro b hb
      exact (h.members b hb).trans
        (map_snd_filter_zipIdx (PhraseTable.ofList phrases capacity) b.1)
    capacity := fun b hb => by rw [h.fresh b hb, hC.capacity_fresh]; rfl
    entries := fun b hb => by rw [h.fresh b hb, hC.entries_fresh]; rfl
    valid := by simp [PhraseTable.unused]
    descending := List.Pairwise.nil
    past := by simp [PhraseTable.unused]
    limit := by simp [PhraseTable.unused] }

section

variable {r : Registry C F} {t : PhraseTable F} {u : Usage} {time : Nat → Nat}

/-! ## A promotion -/

theorem filter_recent_promote {id : Nat} {p : Phrase F} (hp : t.phrases[id]? = some p) :
    (t.promote u id).recent.filter (t.admits (· == p.returns)) =
      refreshed t.capacity id (u.recent.filter (t.admits (· == p.returns))) := by
  have hown : t.admits (· == p.returns) id = true := (PhraseTable.admits_class_iff hp).2 rfl
  have hfilter : (id :: u.recent.filter (· ≠ id)).filter (t.admits (· == p.returns)) =
      id :: (u.recent.filter (t.admits (· == p.returns))).filter (· ≠ id) := by
    rw [List.filter_cons, if_pos hown, List.filter_filter, List.filter_filter]
    simp only [Bool.and_comm]
  unfold refreshed
  split
  · rename_i h
    rw [PhraseTable.recent_promote_of_unlimited h (List.getElem?_eq_some_iff.1 hp).1, hfilter]
  · rename_i h
    rw [PhraseTable.recent_promote_of_limited h hp, PhraseTable.filter_limited, hfilter]

theorem filter_recent_promote_of_ne {id : Nat} {p : Phrase F} (hp : t.phrases[id]? = some p)
    {c : ClassId} (hne : c ≠ p.returns) :
    (t.promote u id).recent.filter (t.admits (· == c)) = u.recent.filter (t.admits (· == c)) := by
  have hother : t.admits (· == c) id = false :=
    PhraseTable.admits_class_eq_false hp hne.symm
  have hfilter : (id :: u.recent.filter (· ≠ id)).filter (t.admits (· == c)) =
      u.recent.filter (t.admits (· == c)) := by
    rw [List.filter_cons, if_neg (by simp [hother]), List.filter_filter]
    refine List.filter_congr fun j _ => ?_
    by_cases hj : j = id <;> simp [hj, hother]
  by_cases h : t.capacity = 0
  · rw [PhraseTable.recent_promote_of_unlimited h (List.getElem?_eq_some_iff.1 hp).1, hfilter]
  · rw [PhraseTable.recent_promote_of_limited h hp, PhraseTable.filter_limited_of_ne hne, hfilter]

theorem recent_promote_sublist {id : Nat} {p : Phrase F} (hp : t.phrases[id]? = some p) :
    (t.promote u id).recent.Sublist (id :: u.recent.filter (· ≠ id)) := by
  by_cases h : t.capacity = 0
  · rw [PhraseTable.recent_promote_of_unlimited h (List.getElem?_eq_some_iff.1 hp).1]
  · rw [PhraseTable.recent_promote_of_limited h hp]
    exact PhraseTable.limited_sublist _ _ _

theorem promote_eq {id : Nat} {p : Phrase F} (hp : r.phrases[id]? = some p)
    (hknown : p.returns ∈ r.buckets.map (·.1)) : r.promote id =
      { r with buckets := touch p.returns id (r.clock + 1) r.buckets, clock := r.clock + 1 } := by
  obtain ⟨b, hb, hclass⟩ := List.mem_map.1 hknown
  have hlookup : r.buckets.lookup p.returns ≠ none := fun hnone => by
    have := List.lookup_eq_none_iff.1 hnone b hb
    simp [hclass] at this
  unfold promote
  rw [hp]
  dsimp only
  cases hb : r.buckets.lookup p.returns with
  | none => exact absurd hb hlookup
  | some _ => rfl

theorem Remembers.promote_known (hC : C.Lawful) (h : Remembers C r t u time) {id : Nat}
    {p : Phrase F} (hp : t.phrases[id]? = some p) :
    Remembers C (r.promote id) t (t.promote u id) (Function.update time id (r.clock + 1)) := by
  have hsub := recent_promote_sublist (u := u) hp
  have hmem {j : Nat} (hj : j ∈ (t.promote u id).recent) : j = id ∨ j ∈ u.recent ∧ j ≠ id := by
    have := hsub.subset hj
    simpa using this
  rw [promote_eq (h.phrases ▸ hp) (h.known id p hp)]
  exact {
    phrases := h.phrases
    classes := by rw [map_fst_touch]; exact h.classes
    known := by rw [map_fst_touch]; exact h.known
    members := by
      intro q hq
      rcases mem_touch hq with ⟨hq, -⟩ | ⟨b, hb, rfl⟩
      · exact h.members q hq
      · exact h.members (p.returns, b) hb
    capacity := by
      intro q hq
      rcases mem_touch hq with ⟨hq, -⟩ | ⟨b, hb, rfl⟩
      · exact h.capacity q hq
      · exact (hC.capacity_put ..).trans (h.capacity _ hb)
    entries := by
      intro q hq
      rcases mem_touch hq with ⟨hq, hne⟩ | ⟨b, hb, rfl⟩
      · rw [h.entries q hq, filter_recent_promote_of_ne hp hne]
        refine List.map_congr_left fun j hj => ?_
        have hne : j ≠ id := by
          rintro rfl
          exact hne ((PhraseTable.admits_class_iff hp).1 (List.mem_filter.1 hj).2).symm
        rw [Function.update_of_ne hne]
      · have hcapacity : C.capacity b.recent = t.capacity := h.capacity _ hb
        rw [filter_recent_promote hp, ← hcapacity]
        refine entries_put hC (h.entries _ hb) (fun hlimited => ?_) id (r.clock + 1)
        rw [hcapacity] at hlimited ⊢
        exact h.limit hlimited p.returns
    valid := by
      intro j hj
      rcases hmem hj with rfl | ⟨hj, -⟩
      · exact (List.getElem?_eq_some_iff.1 hp).1
      · exact h.valid j hj
    descending := List.Pairwise.sublist hsub
      (descending_update h.descending (fun j hj => Nat.lt_succ_of_le (h.past j hj)) id)
    past := by
      intro j hj
      rcases hmem hj with rfl | ⟨hj, hne⟩
      · exact Nat.le_of_eq (Function.update_self ..)
      · rw [Function.update_of_ne hne]
        exact Nat.le_succ_of_le (h.past j hj)
    limit := by
      intro hlimited c
      by_cases hclass : c = p.returns
      · rw [hclass, filter_recent_promote hp, refreshed, if_neg hlimited]
        exact List.length_take_le _ _
      · rw [filter_recent_promote_of_ne hp hclass]
        exact h.limit hlimited c }

theorem Remembers.promote (hC : C.Lawful) (h : Remembers C r t u time) (id : Nat) :
    ∃ time', Remembers C (r.promote id) t (t.promote u id) time' := by
  by_cases hid : id < t.size
  · obtain ⟨p, hp⟩ := PhraseTable.exists_phrase hid
    exact ⟨_, h.promote_known hC hp⟩
  · have hnone : r.phrases[id]? = none := by
      rw [h.phrases]
      exact List.getElem?_eq_none (Nat.le_of_not_lt hid)
    have hsame : r.promote id = r := by
      unfold Registry.promote
      rw [hnone]
    rw [hsame, PhraseTable.promote_of_size_le (Nat.le_of_not_lt hid)]
    exact ⟨time, h⟩

theorem Remembers.foldl_promote (hC : C.Lawful) (h : Remembers C r t u time) (history : List Nat) :
    ∃ time', Remembers C (history.foldl Registry.promote r) t (history.foldl t.promote u) time' := by
  induction history generalizing r u time with
  | nil => exact ⟨time, h⟩
  | cons id history ih =>
    obtain ⟨_, hnext⟩ := h.promote hC id
    exact ih hnext

/-! ## Candidates -/

/-- The parts of a list by classes are the list, in another order. -/
theorem flatMap_filter_perm {l : List Nat} (hl : l.Nodup) {classes : List ClassId}
    (hclasses : classes.Nodup) {accepts : ClassId → Bool}
    (h : ∀ id ∈ l, ∀ p, t.phrases[id]? = some p → (p.returns ∈ classes ↔ accepts p.returns = true)) :
    (classes.flatMap fun c => l.filter (t.admits (· == c))).Perm (l.filter (t.admits accepts)) := by
  refine (List.perm_ext_iff_of_nodup ?_ (hl.filter _)).2 fun id => ?_
  · rw [List.nodup_flatMap]
    refine ⟨fun c _ => hl.filter _, ?_⟩
    refine hclasses.imp fun {c d} hne => ?_
    intro id hc hd
    have hc := (List.mem_filter.1 hc).2
    have hd := (List.mem_filter.1 hd).2
    rw [PhraseTable.admits_of_ne hne hd] at hc
    cases hc
  · simp only [List.mem_flatMap, List.mem_filter]
    constructor
    · rintro ⟨c, hc, hid, hadmits⟩
      obtain ⟨p, hp⟩ := PhraseTable.exists_phrase (PhraseTable.lt_size_of_admits hadmits)
      obtain rfl := (PhraseTable.admits_class_iff hp).1 hadmits
      refine ⟨hid, ?_⟩
      simpa [PhraseTable.admits, hp] using (h id hid p hp).1 hc
    · rintro ⟨hid, hadmits⟩
      obtain ⟨p, hp⟩ := PhraseTable.exists_phrase (PhraseTable.lt_size_of_admits hadmits)
      refine ⟨p.returns, (h id hid p hp).2 ?_, hid, (PhraseTable.admits_class_iff hp).2 rfl⟩
      simpa [PhraseTable.admits, hp] using hadmits

section

variable (h : Remembers C r t u time) {scan : List (ClassId × Bucket C)}
  (hscan : scan.Perm r.buckets) (accepts : ClassId → Bool)

include h hscan

theorem Remembers.nodup_accepted : ((scan.filter fun b => accepts b.1).map (·.1)).Nodup :=
  (List.filter_sublist.map _).nodup ((hscan.map (·.1)).nodup_iff.2 h.classes)

theorem Remembers.mem_accepted {id : Nat} {p : Phrase F} (hp : t.phrases[id]? = some p) :
    p.returns ∈ (scan.filter fun b => accepts b.1).map (·.1) ↔ accepts p.returns = true := by
  constructor
  · intro hin
    obtain ⟨b, hb, hb'⟩ := List.mem_map.1 hin
    rw [← hb']
    exact (List.mem_filter.1 hb).2
  · intro haccepted
    obtain ⟨b, hb, hb'⟩ := List.mem_map.1 (h.known id p hp)
    rw [← hb'] at haccepted ⊢
    exact List.mem_map_of_mem (List.mem_filter.2 ⟨hscan.symm.subset hb, haccepted⟩)

/-- If what each bucket yields is the part of a list that has its class, the accepted buckets yield
all of the list that is accepted. -/
theorem Remembers.accepted_perm {l : List Nat} (hl : l.Nodup) {yielded : Bucket C → List Nat}
    (hyielded : ∀ b ∈ r.buckets, yielded b.2 = l.filter (t.admits (· == b.1))) :
    (((scan.filter fun b => accepts b.1).map (·.2)).flatMap yielded).Perm
      (l.filter (t.admits accepts)) := by
  have hparts : ((scan.filter fun b => accepts b.1).map (·.2)).flatMap yielded =
      ((scan.filter fun b => accepts b.1).map (·.1)).flatMap fun c =>
        l.filter (t.admits (· == c)) := by
    rw [List.flatMap_map, List.flatMap_map]
    exact List.flatMap_congr fun b hb => hyielded b (hscan.subset (List.mem_of_mem_filter hb))
  rw [hparts]
  exact flatMap_filter_perm hl (h.nodup_accepted hscan accepts)
    fun id _ p => h.mem_accepted hscan accepts

theorem Remembers.candidates_eq : r.candidates scan accepts = t.candidates u accepts := by
  let accepted := (scan.filter fun b => accepts b.1).map (·.2)
  have hnodup : u.recent.Nodup := h.descending.imp fun hlt heq => by
    rw [heq] at hlt
    exact Nat.lt_irrefl _ hlt
  have hentries : (accepted.flatMap fun b => C.entries b.recent).Perm
      ((u.recent.filter (t.admits accepts)).map fun id => (id, time id)) := by
    have hids (b : ClassId × Bucket C) (hb : b ∈ r.buckets) :
        (C.entries b.2.recent).map (·.1) = u.recent.filter (t.admits (· == b.1)) := by
      rw [h.entries b hb, List.map_map]
      exact List.map_id _
    have htimed (b : Bucket C) (hb : b ∈ accepted) :
        C.entries b.recent = ((C.entries b.recent).map (·.1)).map fun id => (id, time id) := by
      obtain ⟨q, hq, rfl⟩ := List.mem_map.1 hb
      have hq := hscan.subset (List.mem_of_mem_filter hq)
      rw [hids q hq]
      exact h.entries q hq
    have hperm : (accepted.flatMap fun b => (C.entries b.recent).map (·.1)).Perm
        (u.recent.filter (t.admits accepts)) := h.accepted_perm hscan accepts hnodup hids
    rw [List.flatMap_congr htimed, ← List.map_flatMap]
    exact hperm.map _
  have hfirst : (((accepted.flatMap fun b => C.entries b.recent).mergeSort
      fun x y => y.2 ≤ x.2).map (·.1)).eraseDups = u.recent.filter (t.admits accepts) := by
    rw [mergeSort_entries (h.descending.filter _) hentries, List.map_map]
    exact (congrArg List.eraseDups (List.map_id _)).trans (eraseDups_of_nodup (hnodup.filter _))
  have hrest : ((accepted.flatMap (·.members)).filter fun id =>
      !(u.recent.filter (t.admits accepts)).contains id).mergeSort (fun i j => i ≤ j) =
      (List.range t.size).filter fun id =>
        t.admits accepts id && !(u.recent.filter (t.admits accepts)).contains id := by
    refine mergeSort_range ?_
    rw [List.filter_congr fun id _ => Bool.and_comm _ _, ← List.filter_filter]
    exact (h.accepted_perm hscan accepts List.nodup_range h.members).filter _
  have hvalid : ∀ id ∈ t.candidates u accepts, (r.phrases[id]?).isSome = true := by
    intro id hid
    obtain ⟨p, hp⟩ := PhraseTable.exists_phrase
      (PhraseTable.lt_size_of_admits (PhraseTable.mem_candidates.1 hid))
    rw [h.phrases, hp]
    rfl
  unfold candidates
  dsimp only
  rw [hfirst, hrest]
  exact List.filter_eq_self.2 hvalid

end

end

/-! ## Any history -/

/-- What buckets offer after any history, in whatever order they are met: each phrase of an accepted
class once, those that are remembered in front, the others in the order of the table. Without a limit
it is what one list gives in which what was of use is moved to the front. -/
theorem candidates_eq_inOrder (hC : C.Lawful) (phrases : List (Phrase F)) (capacity : Nat)
    (history : List Nat) (accepts : ClassId → Bool) (scan : List (ClassId × Bucket C))
    (hscan : scan.Perm (history.foldl promote (ofList phrases capacity)).buckets) :
    let t := PhraseTable.ofList phrases capacity
    let ids := (history.foldl promote (ofList phrases capacity)).candidates scan accepts
    ids = t.inOrder history accepts ∧ ids.Nodup ∧ (∀ id, id ∈ ids ↔ t.admits accepts id = true) ∧
      (capacity = 0 →
        ids = (history.foldl t.moveToFront (List.range t.size)).filter (t.admits accepts)) ∧
      ids = t.candidates (history.foldl t.promote t.unused) accepts ∧
      ∃ order : List Nat, order.Perm (List.range phrases.length) ∧
        order.Pairwise (PhraseTable.Precedes phrases) ∧
        order.map (phrases[·]?) = t.phrases.map some := by
  intro t ids
  obtain ⟨time, h⟩ := (remembers_ofList hC phrases capacity).foldl_promote hC history
  have hcandidates : ids = t.candidates (history.foldl t.promote t.unused) accepts :=
    h.candidates_eq hscan accepts
  have horder : ids = t.inOrder history accepts :=
    hcandidates.trans (PhraseTable.candidates_foldl_promote history accepts)
  refine ⟨horder, ?_, ?_, ?_, hcandidates, PhraseTable.exists_order phrases capacity⟩
  · rw [horder]
    exact PhraseTable.nodup_inOrder history accepts
  · intro id
    rw [hcandidates]
    exact PhraseTable.mem_candidates
  · intro hcapacity
    rw [horder]
    exact PhraseTable.inOrder_of_unlimited hcapacity history accepts

end

/-- One phrase is remembered for each class, and one promotion is of no phrase at all. -/
theorem candidates_eq_inOrder_evicted :
    let phrases : List (Phrase Unit) :=
      [⟨"low", .number, 1, [], (), 1⟩, ⟨"few", .number, 1, [], (), 5⟩, ⟨"text", .string, 1, [], (), 5⟩,
        ⟨"many", .number, 3, [], (), 5⟩]
    let r : Registry .lists Unit := [3, 2, 9, 1].foldl promote (ofList phrases 1)
    r.candidates r.buckets.reverse (fun _ => true) = [1, 2, 0, 3] := by
  intro phrases r
  have hsorted : PhraseTable.ofList phrases 1 =
      ⟨[⟨"many", .number, 3, [], (), 5⟩, ⟨"few", .number, 1, [], (), 5⟩,
        ⟨"text", .string, 1, [], (), 5⟩, ⟨"low", .number, 1, [], (), 1⟩], 1⟩ := by
    simp [phrases, PhraseTable.ofList, List.mergeSort, List.MergeSort.Internal.splitInTwo,
      Phrase.goesFirst]
  have h := (candidates_eq_inOrder PhraseCache.lists_lawful phrases 1 [3, 2, 9, 1] (fun _ => true)
    r.buckets.reverse (List.reverse_perm r.buckets)).1
  rw [hsorted] at h
  exact h.trans (by decide)

end Registry

end Phrasebook
