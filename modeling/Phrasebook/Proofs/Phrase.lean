import Mathlib.Data.List.Induction
import Mathlib.Data.List.Nodup
import Phrasebook.Phrase

/-!
The order in which phrases are tried, told from the history of their use: those that were promoted
come first, each once and the latest one leading, as far as their class remembers them; the others
follow in the order of the table, which is that of priority, of declared patterns and of declaration.
-/

namespace Phrasebook

namespace PhraseTable

/-! ## Lists without repetitions -/

theorem filter_eraseDups (p : Nat → Bool) (l : List Nat) :
    l.eraseDups.filter p = (l.filter p).eraseDups := by
  induction hn : l.length using Nat.strongRecOn generalizing l with
  | ind n ih =>
    subst hn
    cases l with
    | nil => rfl
    | cons a l =>
      have hlength : (l.filter fun b => !b == a).length < (a :: l).length :=
        Nat.lt_succ_of_le (List.length_filter_le _ l)
      rw [List.eraseDups_cons, List.filter_cons, List.filter_cons, ih _ hlength _ rfl]
      split
      · rw [List.eraseDups_cons, List.filter_filter, List.filter_filter]
        simp only [Bool.and_comm]
      · rename_i ha
        rw [List.filter_filter]
        congr 1
        refine List.filter_congr fun b _ => ?_
        by_cases hb : b = a
        · simp_all
        · simp [hb]

theorem nodup_eraseDups (l : List Nat) : l.eraseDups.Nodup := by
  induction hn : l.length using Nat.strongRecOn generalizing l with
  | ind n ih =>
    subst hn
    cases l with
    | nil => exact List.nodup_nil
    | cons a l =>
      have hlength : (l.filter fun b => !b == a).length < (a :: l).length :=
        Nat.lt_succ_of_le (List.length_filter_le _ l)
      rw [List.eraseDups_cons, List.nodup_cons]
      refine ⟨?_, ih _ hlength _ rfl⟩
      simp

/-- Of a list without repetitions, those that are among the first `n` are the first `n`. -/
theorem filter_mem_take {l : List Nat} (hl : l.Nodup) (n : Nat) :
    (l.filter fun id => (l.take n).contains id) = l.take n := by
  induction l generalizing n with
  | nil => simp
  | cons id l ih =>
    obtain ⟨hid, hl⟩ := List.nodup_cons.1 hl
    cases n with
    | zero => simp
    | succ n =>
      rw [List.take_succ_cons, List.filter_cons, if_pos (by simp)]
      congr 1
      refine (List.filter_congr fun j hj => ?_).trans (ih hl n)
      have : j ≠ id := fun heq => hid (heq ▸ hj)
      simp [this]

theorem filter_ne_of_not_mem {l : List Nat} {id : Nat} (h : id ∉ l) : l.filter (· ≠ id) = l :=
  List.filter_eq_self.2 fun j hj => by
    have : j ≠ id := fun heq => h (heq ▸ hj)
    simpa using this

/-- One more is kept, then one is taken away: of the others, as many remain as before. -/
theorem take_filter_take {l : List Nat} (hl : l.Nodup) (id n : Nat) :
    ((l.take (n + 1)).filter (· ≠ id)).take n = (l.filter (· ≠ id)).take n := by
  induction l generalizing n with
  | nil => simp
  | cons a l ih =>
    obtain ⟨ha, hl⟩ := List.nodup_cons.1 hl
    by_cases hid : a = id
    · subst hid
      have hsome : a ∉ l.take n := fun h => ha (List.mem_of_mem_take h)
      rw [List.take_succ_cons, List.filter_cons, if_neg (by simp), List.filter_cons,
        if_neg (by simp), filter_ne_of_not_mem ha, filter_ne_of_not_mem hsome, List.take_take,
        Nat.min_self]
    · cases n with
      | zero => simp
      | succ n =>
        rw [List.take_succ_cons, List.filter_cons, if_pos (by simpa using hid), List.filter_cons,
          if_pos (by simpa using hid), List.take_succ_cons, List.take_succ_cons, ih hl]

variable [RegexEngine] {F : Type} {t : PhraseTable F} {accepts : ClassId → Bool} {c d : ClassId} {id : Nat}

theorem lt_size_of_admits (h : t.admits accepts id = true) : id < t.size := by
  by_contra hge
  unfold admits at h
  rw [List.getElem?_eq_none (Nat.le_of_not_lt hge)] at h
  cases h

/-- Which phrases are candidates does not depend on what has happened to them. -/
theorem mem_candidates {u : Usage} : id ∈ t.candidates u accepts ↔ t.admits accepts id = true := by
  unfold candidates
  simp only [List.mem_append, List.mem_filter, List.mem_range, Bool.and_eq_true]
  constructor
  · rintro (⟨-, h⟩ | ⟨-, h, -⟩) <;> exact h
  · intro h
    by_cases hrecent : id ∈ u.recent
    · exact Or.inl ⟨hrecent, h⟩
    · refine Or.inr ⟨lt_size_of_admits h, h, ?_⟩
      simp [hrecent]

/-! ## The history -/

/-- The phrases that were promoted, each once and the latest one leading. -/
def promoted (t : PhraseTable F) (history : List Nat) : List Nat :=
  (history.reverse.filter (· < t.size)).eraseDups

/-- Whether the phrase is among the latest of its class, as many as are remembered. -/
def remembers (t : PhraseTable F) (history : List Nat) (id : Nat) : Bool :=
  t.capacity == 0 || t.phrases[id]?.any fun p =>
    (((t.promoted history).filter (t.admits (· == p.returns))).take t.capacity).contains id

/-- The phrases to try after a history. -/
def inOrder (t : PhraseTable F) (history : List Nat) (accepts : ClassId → Bool) : List Nat :=
  let first := (t.promoted history).filter fun id => t.admits accepts id && t.remembers history id
  first ++ (List.range t.size).filter fun id => t.admits accepts id && !first.contains id

/-- Moves a phrase to the front of all. -/
def moveToFront (t : PhraseTable F) (ids : List Nat) (id : Nat) : List Nat :=
  if id < t.size then id :: ids.filter (· ≠ id) else ids

/-! ## Limits -/

@[simp] theorem limited_nil (c : ClassId) (n : Nat) : t.limited c n [] = [] := by
  rw [limited.eq_def]

theorem limited_of_not (h : t.admits (· == c) id = false) (n : Nat) (l : List Nat) :
    t.limited c n (id :: l) = id :: t.limited c n l := by
  rw [limited.eq_def]
  simp [h]

theorem limited_zero (h : t.admits (· == c) id = true) (l : List Nat) :
    t.limited c 0 (id :: l) = t.limited c 0 l := by
  rw [limited.eq_def]
  simp [h]

theorem limited_succ (h : t.admits (· == c) id = true) (n : Nat) (l : List Nat) :
    t.limited c (n + 1) (id :: l) = id :: t.limited c n l := by
  rw [limited.eq_def]
  simp [h]

/-- The first `n` of the class stay, and all of the others. -/
theorem limited_eq_filter (c : ClassId) (n : Nat) {l : List Nat} (hl : l.Nodup) :
    t.limited c n l = l.filter fun id =>
      !t.admits (· == c) id || ((l.filter (t.admits (· == c))).take n).contains id := by
  induction l generalizing n with
  | nil => rfl
  | cons id l ih =>
    obtain ⟨hid, hl⟩ := List.nodup_cons.1 hl
    have ih (n : Nat) := ih n hl
    -- the first one is not met again
    have hne (j : Nat) (hj : j ∈ l) : j ≠ id := fun heq => hid (heq ▸ hj)
    cases hc : t.admits (· == c) id with
    | false =>
      rw [limited_of_not hc, ih, List.filter_cons, if_pos (by simp [hc]), List.filter_cons]
      simp [hc]
    | true =>
      cases n with
      | zero =>
        rw [limited_zero hc, ih]
        simp [hc]
      | succ n =>
        rw [limited_succ hc, ih, List.filter_cons, if_pos (by simp [hc])]
        congr 1
        refine List.filter_congr fun j hj => ?_
        simp [hc, hne j hj]

theorem filter_limited (c : ClassId) (n : Nat) (l : List Nat) :
    (t.limited c n l).filter (t.admits (· == c)) = (l.filter (t.admits (· == c))).take n := by
  induction l generalizing n with
  | nil => simp
  | cons id l ih =>
    cases hc : t.admits (· == c) id with
    | false => simp [limited_of_not hc, hc, ih]
    | true =>
      cases n with
      | zero => simp [limited_zero hc, ih]
      | succ n => simp [limited_succ hc, hc, ih]

/-- A phrase has one class. -/
theorem admits_of_ne (h : d ≠ c) (hc : t.admits (· == c) id = true) : t.admits (· == d) id = false := by
  unfold admits at hc ⊢
  cases hp : t.phrases[id]? with
  | none => rfl
  | some p =>
    rw [hp] at hc
    have hc : p.returns = c := by simpa using hc
    simpa [hc] using h.symm

theorem filter_limited_of_ne (h : d ≠ c) (n : Nat) (l : List Nat) :
    (t.limited c n l).filter (t.admits (· == d)) = l.filter (t.admits (· == d)) := by
  induction l generalizing n with
  | nil => simp
  | cons id l ih =>
    cases hc : t.admits (· == c) id with
    | false => simp [limited_of_not hc, List.filter_cons, ih]
    | true =>
      have hd := admits_of_ne h hc
      cases n with
      | zero => simp [limited_zero hc, hd, ih]
      | succ n => simp [limited_succ hc, hd, ih]

theorem limited_sublist (c : ClassId) (n : Nat) (l : List Nat) : (t.limited c n l).Sublist l := by
  induction l generalizing n with
  | nil => simp
  | cons id l ih =>
    cases hc : t.admits (· == c) id with
    | false =>
      rw [limited_of_not hc]
      exact (ih n).cons_cons id
    | true =>
      cases n with
      | zero =>
        rw [limited_zero hc]
        exact (ih 0).cons id
      | succ n =>
        rw [limited_succ hc]
        exact (ih n).cons_cons id

/-! ## What is remembered -/

theorem nodup_promoted (history : List Nat) : (t.promoted history).Nodup := nodup_eraseDups _

theorem lt_size_of_mem_promoted {history : List Nat} (h : id ∈ t.promoted history) : id < t.size := by
  have := (List.mem_filter.1 (List.mem_eraseDups.1 h)).2
  simpa using this

theorem promoted_snoc (history : List Nat) (id : Nat) : t.promoted (history ++ [id]) =
    if id < t.size then id :: (t.promoted history).filter (· ≠ id) else t.promoted history := by
  unfold promoted
  rw [List.reverse_append, List.reverse_singleton, List.singleton_append, List.filter_cons]
  by_cases hid : id < t.size
  · rw [if_pos (by simpa using hid), if_pos hid, List.eraseDups_cons, filter_eraseDups]
    congr 3
    funext j
    by_cases hj : j = id <;> simp [hj]
  · rw [if_neg (by simpa using hid), if_neg hid]

theorem remembers_of_capacity (h : t.capacity = 0) (history : List Nat) (id : Nat) :
    t.remembers history id = true := by
  simp [remembers, h]

theorem remembers_eq {p : Phrase F} (hp : t.phrases[id]? = some p) (h : t.capacity ≠ 0)
    (history : List Nat) : t.remembers history id =
      (((t.promoted history).filter (t.admits (· == p.returns))).take t.capacity).contains id := by
  simp [remembers, h, hp]

theorem admits_class_iff {p : Phrase F} (hp : t.phrases[id]? = some p) :
    t.admits (· == c) id = true ↔ p.returns = c := by
  simp [admits, hp]

theorem admits_class_eq_false {p : Phrase F} (hp : t.phrases[id]? = some p) (h : p.returns ≠ c) :
    t.admits (· == c) id = false := by
  rw [Bool.eq_false_iff, Ne, admits_class_iff hp]
  exact h

theorem exists_phrase (h : id < t.size) : ∃ p, t.phrases[id]? = some p :=
  ⟨_, List.getElem?_eq_getElem h⟩

/-- Of each class, the first ones are remembered. -/
theorem filter_remembers (h : t.capacity ≠ 0) (history : List Nat) (c : ClassId) :
    ((t.promoted history).filter (t.remembers history)).filter (t.admits (· == c)) =
      ((t.promoted history).filter (t.admits (· == c))).take t.capacity := by
  rw [List.filter_filter]
  refine Eq.trans ?_ (filter_mem_take ((nodup_promoted history).filter _) t.capacity)
  rw [List.filter_filter]
  refine List.filter_congr fun j hj => ?_
  obtain ⟨p, hp⟩ := exists_phrase (lt_size_of_mem_promoted hj)
  rw [remembers_eq hp h, Bool.and_comm]
  by_cases hc : p.returns = c
  · rw [hc]
  · simp [admits_class_eq_false hp hc]

theorem recent_promote_of_unlimited {u : Usage} (h : t.capacity = 0) (hid : id < t.size) :
    (t.promote u id).recent = id :: u.recent.filter (· ≠ id) := by
  obtain ⟨p, hp⟩ := exists_phrase hid
  simp [promote, hp, h]

theorem recent_promote_of_limited {u : Usage} {p : Phrase F} (h : t.capacity ≠ 0)
    (hp : t.phrases[id]? = some p) :
    (t.promote u id).recent = t.limited p.returns t.capacity (id :: u.recent.filter (· ≠ id)) := by
  simp [promote, hp, h]

theorem promote_of_size_le {u : Usage} (h : t.size ≤ id) : t.promote u id = u := by
  have : t.phrases[id]? = none := List.getElem?_eq_none h
  simp [promote, this]

/-- A promotion does not matter to the phrases of other classes. -/
theorem remembers_snoc_of_ne {p q : Phrase F} {j : Nat} (hp : t.phrases[id]? = some p)
    (hq : t.phrases[j]? = some q) (hne : q.returns ≠ p.returns) (history : List Nat) :
    t.remembers (history ++ [id]) j = t.remembers history j := by
  by_cases h : t.capacity = 0
  · rw [remembers_of_capacity h, remembers_of_capacity h]
  · have hid : id < t.size := (List.getElem?_eq_some_iff.1 hp).1
    have hother : t.admits (· == q.returns) id = false :=
      admits_class_eq_false hp hne.symm
    have hclass : (t.promoted (history ++ [id])).filter (t.admits (· == q.returns)) =
        (t.promoted history).filter (t.admits (· == q.returns)) := by
      rw [promoted_snoc, if_pos hid, List.filter_cons, if_neg (by simp [hother]), List.filter_filter]
      refine List.filter_congr fun k _ => ?_
      by_cases hk : k = id
      · simp [hk, hother]
      · simp [hk]
    rw [remembers_eq hq h, remembers_eq hq h, hclass]

/-- Of the class of a phrase that was just promoted, those are remembered that are counted from it on. -/
theorem remembers_snoc_iff {p q : Phrase F} {j : Nat} (h : t.capacity ≠ 0)
    (hp : t.phrases[id]? = some p) (hq : t.phrases[j]? = some q) (hc : q.returns = p.returns)
    (history : List Nat) : t.remembers (history ++ [id]) j = true ↔
      j ∈ ((id :: ((t.promoted history).filter (t.remembers history)).filter (· ≠ id)).filter
        (t.admits (· == p.returns))).take t.capacity := by
  have hown : t.admits (· == p.returns) id = true := (admits_class_iff hp).2 rfl
  have hlt : id < t.size := (List.getElem?_eq_some_iff.1 hp).1
  obtain ⟨n, hn⟩ : ∃ n, t.capacity = n + 1 := Nat.exists_eq_succ_of_ne_zero h
  have hclass : ((id :: ((t.promoted history).filter (t.remembers history)).filter (· ≠ id)).filter
        (t.admits (· == p.returns))).take t.capacity =
      ((t.promoted (history ++ [id])).filter (t.admits (· == p.returns))).take t.capacity := by
    rw [promoted_snoc, if_pos hlt, List.filter_cons, if_pos hown, List.filter_cons, if_pos hown,
      List.filter_comm, filter_remembers h, hn, List.take_succ_cons, List.take_succ_cons,
      take_filter_take ((nodup_promoted history).filter _), List.filter_comm]
  rw [remembers_eq hq h, hc, hclass, List.contains_iff_mem]

theorem remembers_snoc_self {p : Phrase F} (hp : t.phrases[id]? = some p) (history : List Nat) :
    t.remembers (history ++ [id]) id = true := by
  by_cases h : t.capacity = 0
  · exact remembers_of_capacity h _ _
  · obtain ⟨n, hn⟩ : ∃ n, t.capacity = n + 1 := Nat.exists_eq_succ_of_ne_zero h
    rw [remembers_snoc_iff h hp hp rfl, List.filter_cons, if_pos ((admits_class_iff hp).2 rfl), hn]
    exact List.mem_cons_self

/-- A promotion brings back no other phrase. -/
theorem remembers_of_snoc {p q : Phrase F} {j : Nat} (hp : t.phrases[id]? = some p)
    (hq : t.phrases[j]? = some q) (hj : j ≠ id) {history : List Nat}
    (hremembers : t.remembers (history ++ [id]) j = true) : t.remembers history j = true := by
  by_cases h : t.capacity = 0
  · exact remembers_of_capacity h _ _
  · by_cases hc : q.returns = p.returns
    · rw [remembers_snoc_iff h hp hq hc] at hremembers
      have hmem := List.mem_of_mem_filter (List.mem_of_mem_take hremembers)
      have hmem := (List.mem_cons.1 hmem).resolve_left hj
      exact (List.mem_filter.1 (List.mem_of_mem_filter hmem)).2
    · rwa [remembers_snoc_of_ne hp hq hc] at hremembers

/-- A promotion after a history: what is remembered is again what the longer history tells. -/
theorem limited_remembered {p : Phrase F} (h : t.capacity ≠ 0) (hp : t.phrases[id]? = some p)
    (history : List Nat) :
    t.limited p.returns t.capacity
        (id :: ((t.promoted history).filter (t.remembers history)).filter (· ≠ id)) =
      (t.promoted (history ++ [id])).filter (t.remembers (history ++ [id])) := by
  have hlt : id < t.size := (List.getElem?_eq_some_iff.1 hp).1
  have hid := remembers_snoc_self hp history
  have hnodup : (id :: ((t.promoted history).filter (t.remembers history)).filter (· ≠ id)).Nodup :=
    List.nodup_cons.2 ⟨by simp, ((nodup_promoted history).filter _).filter _⟩
  calc t.limited p.returns t.capacity
        (id :: ((t.promoted history).filter (t.remembers history)).filter (· ≠ id))
      = (id :: ((t.promoted history).filter (t.remembers history)).filter (· ≠ id)).filter fun j =>
          !t.admits (· == p.returns) j || t.remembers (history ++ [id]) j := by
        rw [limited_eq_filter _ _ hnodup]
        refine List.filter_congr fun j hj => ?_
        have hsize : j < t.size := by
          rcases List.mem_cons.1 hj with rfl | hj
          · exact hlt
          · exact lt_size_of_mem_promoted (List.mem_of_mem_filter (List.mem_of_mem_filter hj))
        obtain ⟨q, hq⟩ := exists_phrase hsize
        by_cases hc : q.returns = p.returns
        · congr 1
          rw [Bool.eq_iff_iff, List.contains_iff_mem, remembers_snoc_iff h hp hq hc]
        · simp [admits_class_eq_false hq hc]
    _ = id :: (((t.promoted history).filter (t.remembers history)).filter (· ≠ id)).filter fun j =>
          !t.admits (· == p.returns) j || t.remembers (history ++ [id]) j := by
        rw [List.filter_cons, if_pos (by simp [hid])]
    _ = id :: ((t.promoted history).filter (· ≠ id)).filter (t.remembers (history ++ [id])) := by
        congr 1
        rw [List.filter_filter, List.filter_filter, List.filter_filter]
        refine List.filter_congr fun j hj => ?_
        obtain ⟨q, hq⟩ := exists_phrase (lt_size_of_mem_promoted hj)
        by_cases hj : j = id
        · simp [hj]
        · by_cases hc : q.returns = p.returns
          · cases hrem : t.remembers (history ++ [id]) j with
            | true => simp [hj, remembers_of_snoc hp hq hj hrem]
            | false => simp [(admits_class_iff hq).2 hc]
          · simp [hj, admits_class_eq_false hq hc, remembers_snoc_of_ne hp hq hc]
    _ = (t.promoted (history ++ [id])).filter (t.remembers (history ++ [id])) := by
        rw [promoted_snoc, if_pos hlt, List.filter_cons, if_pos hid]

theorem recent_foldl_promote (history : List Nat) :
    (history.foldl t.promote t.unused).recent = (t.promoted history).filter (t.remembers history) := by
  induction history using List.reverseRecOn with
  | nil => rfl
  | append_singleton history id ih =>
    rw [List.foldl_append, List.foldl_cons, List.foldl_nil]
    generalize history.foldl t.promote t.unused = u at ih
    by_cases hid : id < t.size
    · obtain ⟨p, hp⟩ := exists_phrase hid
      by_cases h : t.capacity = 0
      · rw [recent_promote_of_unlimited h hid, ih, promoted_snoc, if_pos hid]
        simp [remembers_of_capacity h]
      · rw [recent_promote_of_limited h hp, ih, limited_remembered h hp]
    · rw [promote_of_size_le (by omega), ih]
      have hsame : t.promoted (history ++ [id]) = t.promoted history := by
        rw [promoted_snoc, if_neg hid]
      unfold remembers
      rw [hsame]

theorem candidates_foldl_promote (history : List Nat) (accepts : ClassId → Bool) :
    t.candidates (history.foldl t.promote t.unused) accepts = t.inOrder history accepts := by
  unfold candidates inOrder
  rw [recent_foldl_promote, List.filter_filter]

theorem nodup_inOrder (history : List Nat) (accepts : ClassId → Bool) :
    (t.inOrder history accepts).Nodup := by
  refine List.nodup_append.2 ⟨(nodup_promoted history).filter _, List.nodup_range.filter _, ?_⟩
  rintro i hi j hj rfl
  have := (List.mem_filter.1 hj).2
  simp only [Bool.and_eq_true, Bool.not_eq_true', List.contains_eq_mem, decide_eq_false_iff_not]
    at this
  exact this.2 hi

theorem foldl_moveToFront (history : List Nat) :
    history.foldl t.moveToFront (List.range t.size) = t.promoted history ++
      (List.range t.size).filter fun id => !(t.promoted history).contains id := by
  induction history using List.reverseRecOn with
  | nil =>
    have hnone : t.promoted [] = [] := rfl
    simp [hnone]
  | append_singleton history id ih =>
    rw [List.foldl_append, List.foldl_cons, List.foldl_nil, ih, moveToFront, promoted_snoc]
    split
    · rw [List.filter_append, List.cons_append, List.filter_filter]
      congr 2
      refine List.filter_congr fun j _ => ?_
      by_cases hj : j = id <;> simp [hj]
    · rfl

/-- Without a limit the order is that of one list in which what was of use is moved to the front. -/
theorem inOrder_of_unlimited (h : t.capacity = 0) (history : List Nat) (accepts : ClassId → Bool) :
    t.inOrder history accepts =
      (history.foldl t.moveToFront (List.range t.size)).filter (t.admits accepts) := by
  have hfirst : ((t.promoted history).filter fun id =>
      t.admits accepts id && t.remembers history id) = (t.promoted history).filter (t.admits accepts) :=
    List.filter_congr fun j _ => by simp [remembers_of_capacity h]
  rw [foldl_moveToFront, List.filter_append, List.filter_filter, inOrder, hfirst]
  congr 1
  refine List.filter_congr fun j _ => ?_
  cases hj : t.admits accepts j <;> simp [hj]

/-! ## The order of the table -/

/-- Of the phrases at two positions, the first goes in front: it has the higher priority, or the same
one and more declared patterns, or it agrees in both and was declared earlier. -/
def Precedes (phrases : List (Phrase F)) (i j : Nat) : Prop :=
  ∀ p q, phrases[i]? = some p → phrases[j]? = some q →
    q.priority < p.priority ∨ p.priority = q.priority ∧
      (q.declared < p.declared ∨ p.declared = q.declared ∧ i < j)

theorem goesFirst_iff {p q : Phrase F} : p.goesFirst q = true ↔
    q.priority < p.priority ∨ p.priority = q.priority ∧ q.declared ≤ p.declared := by
  simp [Phrase.goesFirst]

theorem goesFirst_trans (p q r : Phrase F) (hpq : p.goesFirst q = true) (hqr : q.goesFirst r = true) :
    p.goesFirst r = true := by
  rw [goesFirst_iff] at hpq hqr ⊢
  simp only [Int32.lt_iff_toInt_lt, ← Int32.toInt_inj] at hpq hqr ⊢
  omega

theorem goesFirst_total (p q : Phrase F) : (p.goesFirst q || q.goesFirst p) = true := by
  rw [Bool.or_eq_true, goesFirst_iff, goesFirst_iff]
  simp only [Int32.lt_iff_toInt_lt, ← Int32.toInt_inj]
  omega

/-- The table holds the declared phrases, each once, in their order. -/
theorem exists_order (phrases : List (Phrase F)) (capacity : Nat) :
    ∃ order : List Nat, order.Perm (List.range phrases.length) ∧ order.Pairwise (Precedes phrases) ∧
      order.map (phrases[·]?) = (ofList phrases capacity).phrases.map some := by
  let placed := phrases.zipIdx.mergeSort (List.zipIdxLE Phrase.goesFirst)
  have hmem {q : Phrase F × Nat} (hq : q ∈ placed) : phrases[q.2]? = some q.1 :=
    List.mk_mem_zipIdx_iff_getElem?.1 (List.mem_mergeSort.1 hq)
  have hperm : (placed.map (·.2)).Perm (List.range phrases.length) := by
    have := (List.mergeSort_perm phrases.zipIdx (List.zipIdxLE Phrase.goesFirst)).map (·.2)
    rwa [List.zipIdx_map_snd, ← List.range_eq_range'] at this
  refine ⟨placed.map (·.2), hperm, ?_, ?_⟩
  · have hsorted : placed.Pairwise fun a b => List.zipIdxLE Phrase.goesFirst a b = true :=
      List.pairwise_mergeSort (List.zipIdxLE_trans goesFirst_trans)
        (List.zipIdxLE_total goesFirst_total) _
    have hne : placed.Pairwise fun a b => a.2 ≠ b.2 :=
      List.pairwise_map.1 (hperm.nodup_iff.2 List.nodup_range)
    rw [List.pairwise_map]
    refine (hsorted.and hne).imp_of_mem fun {a b} ha hb hab p q hp hq => ?_
    rw [hmem ha] at hp
    rw [hmem hb] at hq
    cases hp
    cases hq
    obtain ⟨hle, hne⟩ := hab
    rw [List.zipIdxLE] at hle
    split at hle
    · rename_i hfirst
      split at hle
      · rename_i hlast
        have hle : a.2 ≤ b.2 := by simpa using hle
        rw [goesFirst_iff] at hfirst hlast
        simp only [Int32.lt_iff_toInt_lt, ← Int32.toInt_inj] at hfirst hlast ⊢
        omega
      · rename_i hlast
        rw [goesFirst_iff] at hfirst hlast
        simp only [Int32.lt_iff_toInt_lt, ← Int32.toInt_inj] at hfirst hlast ⊢
        omega
    · cases hle
  · have hphrases : (ofList phrases capacity).phrases = placed.map (·.1) :=
      List.mergeSort_zipIdx.symm
    rw [hphrases, List.map_map, List.map_map]
    exact List.map_congr_left fun q hq => hmem hq

end PhraseTable

end Phrasebook
