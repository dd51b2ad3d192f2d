import Phrasebook.Expression

/-!
Expressions put together from others, by conversions and lists to any depth. Such an expression is a
literal exactly if all its parts are, and it keeps what its parts say of how many values they have.
-/

namespace Phrasebook.Expression

/-- The expressions `es` are put together from `parts`, in order: a part stands for itself, an expression
is converted, or some expressions in a row make a list. -/
inductive Assembled (graph : ConversionGraph) : (parts es : List Expression) → Prop
  | nil : Assembled graph [] []
  | part (e : Expression) {parts es : List Expression} (h : Assembled graph parts es) :
      Assembled graph (e :: parts) (e :: es)
  | converted (target : ClassId) {parts es : List Expression} {e : Expression}
      (h : Assembled graph parts (e :: es)) : Assembled graph parts (e.converted target graph :: es)
  | list (all : Bool) (returns : ClassId) {parts items es : List Expression}
      (h : Assembled graph parts (items ++ es)) : Assembled graph parts (list items all returns :: es)

namespace Assembled

variable {graph : ConversionGraph} {parts parts' es es' : List Expression}

theorem append (h : Assembled graph parts es) (h' : Assembled graph parts' es') :
    Assembled graph (parts ++ parts') (es ++ es') := by
  induction h with
  | nil => exact h'
  | part e _ ih => exact .part e ih
  | converted target _ ih => exact .converted target ih
  | list all returns _ ih =>
    rw [List.append_assoc] at ih
    exact .list all returns ih

theorem all_isLiteral (h : Assembled graph parts es) :
    es.all (·.isLiteral) = parts.all (·.isLiteral) := by
  induction h with
  | nil => rfl
  | part e _ ih => rw [List.all_cons, List.all_cons, ih]
  | converted target _ ih => exact ih
  | @list all returns _ items es _ ih => rw [← ih, List.all_append, List.all_cons, Expression.list]

end Assembled

/-! ## One value at most -/

/-- If the expression says that it is single, it has one value at most. -/
def Truthful (e : Expression) : Prop := e.single = true → e.values.length ≤ 1

theorem truthful_literal (returns : ClassId) (values : List Value) (source : Text) :
    (literal returns values source).Truthful := of_decide_eq_true

theorem Truthful.converted {e : Expression} (h : e.Truthful) (target : ClassId)
    (graph : ConversionGraph) : (e.converted target graph).Truthful :=
  fun hsingle => Nat.le_trans (List.length_filterMap_le _ _) (h hsingle)

/-- A list says that it is single only if one item alone gives the values, and all items say so. -/
theorem truthful_list {items : List Expression} (h : ∀ e ∈ items, e.Truthful) (all : Bool)
    (returns : ClassId) : (list items all returns).Truthful := by
  intro hsingle
  simp only [list, Bool.and_eq_true, Bool.not_eq_true', List.all_eq_true] at hsingle ⊢
  obtain ⟨rfl, hitems⟩ := hsingle
  rw [if_neg Bool.false_ne_true]
  cases hfind : (items.map (·.values)).find? (!·.isEmpty) with
  | none => exact Nat.zero_le 1
  | some values =>
    obtain ⟨e, he, rfl⟩ := List.mem_map.1 (List.mem_of_find?_eq_some hfind)
    exact h e he (hitems e he)

theorem Assembled.truthful {graph : ConversionGraph} {parts es : List Expression}
    (h : Assembled graph parts es) (hparts : ∀ e ∈ parts, e.Truthful) : ∀ e ∈ es, e.Truthful := by
  induction h with
  | nil => exact hparts
  | part e _ ih =>
    rw [List.forall_mem_cons] at hparts ⊢
    exact ⟨hparts.1, ih hparts.2⟩
  | converted target _ ih =>
    obtain ⟨he, hes⟩ := List.forall_mem_cons.1 (ih hparts)
    exact List.forall_mem_cons.2 ⟨he.converted target graph, hes⟩
  | list all returns _ ih =>
    obtain ⟨hitems, hes⟩ := List.forall_mem_append.1 (ih hparts)
    exact List.forall_mem_cons.2 ⟨truthful_list hitems all returns, hes⟩

end Phrasebook.Expression
