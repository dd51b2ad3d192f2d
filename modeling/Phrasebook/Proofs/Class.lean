import Mathlib.Logic.Relation
import Phrasebook.Class

/-!
Assignability is a partial order: a class is assignable to `object` and to whatever is reached from it by
going from parent to parent. The walk over the ancestors is bounded by the index of the class, and the
bound is never met, because a parent has a smaller index than its child.
-/

namespace Phrasebook.ClassTree

variable {h : ClassTree} {a b c : ClassId}

def IsParent (h : ClassTree) (a b : ClassId) : Prop := h.parent? a = some b

theorem not_isParent_object (h : ClassTree) (b : ClassId) : ¬ h.IsParent .object b := by
  intro hb
  obtain ⟨e, he, hparent⟩ := Option.bind_eq_some_iff.1 hb
  have hroot := h.wellOrdered.root
  rw [List.head?_eq_getElem?] at hroot
  change h.entries[0]? = some e at he
  rw [he] at hroot
  cases hroot.symm.trans (congrArg some hparent)

theorem IsParent.index_lt (hp : h.IsParent a b) : b.index < a.index := by
  obtain ⟨i⟩ := a
  cases i with
  | zero => exact absurd hp (h.not_isParent_object b)
  | succ i =>
    obtain ⟨e, he, hparent⟩ := Option.bind_eq_some_iff.1 hp
    obtain ⟨p, hp, hle⟩ := h.wellOrdered.parents i e he
    cases hparent.symm.trans hp
    exact Nat.lt_succ_of_le hle

/-- A registered class that is not `object` has a parent. -/
theorem exists_isParent (hc : c.index < h.size) (hne : c ≠ .object) : ∃ p, h.IsParent c p := by
  obtain ⟨i⟩ := c
  cases i with
  | zero => exact absurd rfl hne
  | succ i =>
    have he : h.entries[i + 1]? = some h.entries[i + 1] := List.getElem?_eq_getElem hc
    obtain ⟨p, hp, -⟩ := h.wellOrdered.parents i _ he
    exact ⟨p, Option.bind_eq_some_iff.2 ⟨_, he, hp⟩⟩

/-! ## Ancestors -/

theorem reaches_of_mem_ancestorsWithin {n : Nat} (hb : b ∈ h.ancestorsWithin n a) :
    Relation.ReflTransGen h.IsParent a b := by
  induction n generalizing a with
  | zero =>
    rw [List.mem_singleton.1 hb]
  | succ n ih =>
    rw [ancestorsWithin] at hb
    split at hb
    · rw [List.mem_singleton.1 hb]
    · rename_i p hp
      rcases List.mem_cons.1 hb with rfl | hb
      · exact .refl
      · exact .head hp (ih hb)

theorem mem_ancestorsWithin_of_reaches (hab : Relation.ReflTransGen h.IsParent a b) {n : Nat}
    (hn : a.index ≤ n) : b ∈ h.ancestorsWithin n a := by
  induction hab using Relation.ReflTransGen.head_induction_on generalizing n with
  | refl =>
    cases n with
    | zero => exact List.mem_singleton.2 rfl
    | succ n =>
      rw [ancestorsWithin]
      split <;> exact List.mem_cons_self
  | @head a p hp _ ih =>
    have hlt := hp.index_lt
    obtain ⟨n, rfl⟩ : ∃ m, n = m + 1 := ⟨n - 1, by omega⟩
    have hparent : h.parent? a = some p := hp
    rw [ancestorsWithin, hparent]
    exact List.mem_cons_of_mem a (ih (by omega))

theorem mem_ancestors_iff : b ∈ h.ancestors a ↔ Relation.ReflTransGen h.IsParent a b :=
  ⟨reaches_of_mem_ancestorsWithin, fun hab => mem_ancestorsWithin_of_reaches hab (Nat.le_refl _)⟩

theorem index_le_of_reaches (hab : Relation.ReflTransGen h.IsParent a b) : b.index ≤ a.index := by
  induction hab with
  | refl => exact Nat.le_refl _
  | tail _ hp ih => exact Nat.le_trans (Nat.le_of_lt hp.index_lt) ih

/-- Two classes that are reached from one another are one class. -/
theorem reaches_antisymm (hab : Relation.ReflTransGen h.IsParent a b)
    (hba : Relation.ReflTransGen h.IsParent b a) : a = b := by
  obtain ⟨i⟩ := a
  obtain ⟨j⟩ := b
  exact congrArg ClassId.mk (Nat.le_antisymm (index_le_of_reaches hba) (index_le_of_reaches hab))

/-- The list of ancestors goes from child to parent. -/
theorem pairwise_ancestorsWithin (h : ClassTree) (n : Nat) (a : ClassId) :
    (h.ancestorsWithin n a).Pairwise (Relation.ReflTransGen h.IsParent) := by
  induction n generalizing a with
  | zero => exact List.pairwise_singleton _ a
  | succ n ih =>
    rw [ancestorsWithin]
    split
    · exact List.pairwise_singleton _ a
    · rename_i p hp
      refine List.pairwise_cons.2 ⟨fun b hb => ?_, ih p⟩
      exact .head hp (reaches_of_mem_ancestorsWithin hb)

theorem nodup_ancestorsWithin (h : ClassTree) (n : Nat) (c : ClassId) :
    (h.ancestorsWithin n c).Nodup := by
  induction n generalizing c with
  | zero => exact List.pairwise_singleton _ c
  | succ n ih =>
    rw [ancestorsWithin]
    split
    · exact List.pairwise_singleton _ c
    · rename_i p hp
      refine List.nodup_cons.2 ⟨fun hmem => ?_, ih p⟩
      have hle := index_le_of_reaches (reaches_of_mem_ancestorsWithin hmem)
      exact Nat.not_lt.2 hle (IsParent.index_lt hp)

theorem getLast?_ancestorsWithin {n : Nat} (hn : c.index ≤ n) (hc : c.index < h.size) :
    (h.ancestorsWithin n c).getLast? = some .object := by
  induction n generalizing c with
  | zero =>
    obtain ⟨i⟩ := c
    obtain rfl : i = 0 := Nat.le_zero.1 hn
    rfl
  | succ n ih =>
    rw [ancestorsWithin]
    split
    · rename_i hnone
      obtain rfl : c = .object := Decidable.byContradiction fun hne => by
        obtain ⟨p, hp⟩ := exists_isParent hc hne
        cases hnone.symm.trans hp
      rfl
    · rename_i p hp
      have hlt := IsParent.index_lt hp
      rw [List.getLast?_cons, ih (by omega) (by omega), Option.getD_some]

/-! ## Assignability -/

theorem isAssignable_iff :
    h.isAssignable a b = true ↔ b = .object ∨ Relation.ReflTransGen h.IsParent a b := by
  rw [isAssignable, Bool.or_eq_true, beq_iff_eq, List.contains_iff_mem, mem_ancestors_iff]

theorem isAssignable_refl (h : ClassTree) (a : ClassId) : h.isAssignable a a = true :=
  isAssignable_iff.2 (Or.inr .refl)

theorem isAssignable_trans (hab : h.isAssignable a b = true) (hbc : h.isAssignable b c = true) :
    h.isAssignable a c = true := by
  rcases isAssignable_iff.1 hbc with rfl | hbc
  · exact isAssignable_iff.2 (Or.inl rfl)
  · rcases isAssignable_iff.1 hab with rfl | hab
    · -- nothing but `object` is reached from `object`
      cases hbc using Relation.ReflTransGen.head_induction_on with
      | refl => exact isAssignable_iff.2 (Or.inl rfl)
      | head hp => exact absurd hp (h.not_isParent_object _)
    · exact isAssignable_iff.2 (Or.inr (hab.trans hbc))

/-- Nothing but `object` is reached from `object`, so the rule that all classes are assignable to it agrees
with the walk. -/
theorem isAssignable_antisymm (hab : h.isAssignable a b = true) (hba : h.isAssignable b a = true) :
    a = b := by
  have hobject {c : ClassId} (hc : Relation.ReflTransGen h.IsParent .object c) : c = .object := by
    obtain ⟨i⟩ := c
    exact congrArg ClassId.mk (Nat.le_zero.1 (index_le_of_reaches hc))
  rcases isAssignable_iff.1 hab with rfl | hab
  · rcases isAssignable_iff.1 hba with rfl | hba
    · rfl
    · exact hobject hba
  · rcases isAssignable_iff.1 hba with rfl | hba
    · exact (hobject hab).symm
    · exact reaches_antisymm hab hba

theorem isParent_rightUnique (h : ClassTree) : Relator.RightUnique h.IsParent := by
  intro a b c hb hc
  exact Option.some.inj (hb.symm.trans hc)

/-- Of two classes to which one class is assignable, one is assignable to the other: there is only one
way from child to parent. -/
theorem isAssignable_or (ha : h.isAssignable c a = true) (hb : h.isAssignable c b = true) :
    h.isAssignable a b = true ∨ h.isAssignable b a = true := by
  rcases isAssignable_iff.1 ha with rfl | ha
  · exact Or.inr (isAssignable_iff.2 (Or.inl rfl))
  rcases isAssignable_iff.1 hb with rfl | hb
  · exact Or.inl (isAssignable_iff.2 (Or.inl rfl))
  rcases Relation.ReflTransGen.total_of_right_unique h.isParent_rightUnique ha hb with hab | hba
  · exact Or.inl (isAssignable_iff.2 (Or.inr hab))
  · exact Or.inr (isAssignable_iff.2 (Or.inr hba))

/-! ## Names -/

theorem name_eq_iff {name : String} (hc : c.index < h.size) :
    h.name c = name ↔ h.entries[c.index].name = name := by
  rw [ClassTree.name, List.getElem?_eq_getElem hc]

theorem byName?_eq_some_iff {name : String} :
    h.byName? name = some c ↔ c.index < h.size ∧ h.name c = name := by
  rw [byName?, Option.map_eq_some_iff]
  constructor
  · rintro ⟨i, hi, rfl⟩
    obtain ⟨hlt, hname, -⟩ := List.findIdx?_eq_some_iff_getElem.1 hi
    exact ⟨hlt, (name_eq_iff hlt).2 (beq_iff_eq.1 hname)⟩
  · rintro ⟨hlt, hname⟩
    have hmem : h.entries[c.index].name = name := (name_eq_iff hlt).1 hname
    refine ⟨c.index, List.findIdx?_eq_some_iff_getElem.2 ⟨hlt, beq_iff_eq.2 hmem, ?_⟩, rfl⟩
    intro j hj hfirst
    -- names are distinct, so no earlier class has this one
    have hdistinct := List.pairwise_iff_getElem.1 (List.pairwise_map.1 h.wellOrdered.names) j c.index
      (Nat.lt_trans hj hlt) hlt hj
    exact hdistinct ((beq_iff_eq.1 hfirst).trans hmem.symm)

end Phrasebook.ClassTree
