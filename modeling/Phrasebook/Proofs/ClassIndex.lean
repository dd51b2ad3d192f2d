import Mathlib.Data.List.Induction
import Mathlib.Order.Defs.Unbundled
import Phrasebook.ClassIndex
import Phrasebook.Proofs.Class

/-!
Classes after any sequence of registrations. A call that fails leaves nothing behind, and the index of names
leads where a search through the list would. So the list is that of a tree: the way up from a class ends, in
`object` if the class is registered, and assignability is a partial order in which the classes above one
class are comparable.
-/

namespace Phrasebook

namespace ClassIndex

variable {r : ClassIndex} {h : ClassTree} {c : ClassId}

/-! ## The index of names -/

/-- The index leads where a search through the list would. -/
def Named (r : ClassIndex) : Prop :=
  ∀ name, r.byName? name = (r.entries.findIdx? (·.name == name)).map ClassId.mk

theorem named_insert (hr : r.Named) {name : String} (parent : Option ClassId)
    (hfree : ∀ e ∈ r.entries, e.name ≠ name) : (r.insert name parent).2.Named := by
  intro other
  rw [byName?, insert]
  dsimp only
  rw [List.lookup_cons, List.findIdx?_append]
  by_cases hother : other = name
  · subst hother
    have hnone : r.entries.findIdx? (·.name == other) = none :=
      List.findIdx?_eq_none_iff.2 fun e he => beq_false_of_ne (hfree e he)
    simp [hnone]
  · rw [beq_false_of_ne hother]
    have hold : r.named.lookup other = _ := hr other
    simp [hold, List.findIdx?_cons, Ne.symm hother]

/-- Classes with distinct names, put in one after the other. -/
theorem named_foldl_insert {es : List ClassEntry} (hr : r.Named)
    (hdistinct : ((r.entries ++ es).map (·.name)).Nodup) :
    (es.foldl (fun r e => (r.insert e.name e.parent).2) r).Named := by
  induction es generalizing r with
  | nil => exact hr
  | cons e es ih =>
    have hfree : ∀ f ∈ r.entries, f.name ≠ e.name := by
      rw [List.map_append, List.nodup_append] at hdistinct
      intro f hf
      exact hdistinct.2.2 _ (List.mem_map_of_mem hf) _ (by simp)
    rw [List.foldl_cons]
    refine ih (named_insert hr e.parent hfree) ?_
    rwa [insert, List.append_assoc, List.singleton_append]

/-! ## Calls -/

def IsRegistered (r : ClassIndex) (c : ClassId) : Prop := c.index < r.entries.length

/-- What a call does: it gives an error and changes nothing, or it puts a class at the end. -/
theorem register_cases (r : ClassIndex) (name : String) (parent : ClassId) :
    (r.byName? name ≠ none ∧ r.register name parent = (.error (.alreadyRegistered name), r)) ∨
    (r.byName? name = none ∧ ¬ r.IsRegistered parent ∧
      r.register name parent = (.error (.unknownParent name), r)) ∨
    (r.byName? name = none ∧ r.IsRegistered parent ∧
      r.register name parent = (.ok ⟨r.entries.length⟩, (r.insert name (some parent)).2)) := by
  rw [IsRegistered, byName?, ← Option.isSome_iff_ne_none, register]
  split
  · rename_i htaken
    exact .inl ⟨htaken, rfl⟩
  · rename_i hfree
    have hnone := Option.not_isSome_iff_eq_none.1 hfree
    split
    · rename_i hparent
      exact .inr (.inl ⟨hnone, Nat.not_lt.2 hparent, rfl⟩)
    · rename_i hparent
      exact .inr (.inr ⟨hnone, Nat.not_le.1 hparent, rfl⟩)

theorem register_of_error {name : String} {parent : ClassId} {e : ClassError}
    (he : (r.register name parent).1 = .error e) : (r.register name parent).2 = r := by
  rcases r.register_cases name parent with ⟨-, heq⟩ | ⟨-, -, heq⟩ | ⟨-, -, heq⟩
  · rw [heq]
  · rw [heq]
  · rw [heq] at he
    cases he

theorem register_of_ok {name : String} {parent : ClassId} (hc : (r.register name parent).1 = .ok c) :
    c = ⟨r.entries.length⟩ ∧
      (r.register name parent).2.entries = r.entries ++ [⟨name, some parent⟩] := by
  rcases r.register_cases name parent with ⟨-, heq⟩ | ⟨-, -, heq⟩ | ⟨-, -, heq⟩
  · rw [heq] at hc
    cases hc
  · rw [heq] at hc
    cases hc
  · rw [heq] at hc ⊢
    cases hc
    exact ⟨rfl, rfl⟩

theorem error_iff {name : String} {parent : ClassId} :
    (∃ e, (r.register name parent).1 = .error e) ↔
      r.byName? name ≠ none ∨ ¬ r.IsRegistered parent := by
  rcases r.register_cases name parent with
    ⟨htaken, heq⟩ | ⟨-, hparent, heq⟩ | ⟨hfree, hparent, heq⟩
  · exact iff_of_true ⟨_, congrArg Prod.fst heq⟩ (.inl htaken)
  · exact iff_of_true ⟨_, congrArg Prod.fst heq⟩ (.inr hparent)
  · refine iff_of_false ?_ (by simp [hfree, hparent])
    rintro ⟨e, he⟩
    rw [heq] at he
    cases he

/-- The index and the tree have the same classes. -/
structure InStep (r : ClassIndex) (h : ClassTree) : Prop where
  entries : r.entries = h.entries
  named : r.Named

theorem inStep_builtin : builtin.InStep .builtin where
  entries := rfl
  named := named_foldl_insert (fun _ => rfl) ClassTree.wellOrdered_builtinEntries.names

theorem InStep.byName?_eq (hr : r.InStep h) (name : String) : r.byName? name = h.byName? name := by
  rw [hr.named, hr.entries, ClassTree.byName?]

theorem InStep.name_eq (hr : r.InStep h) (c : ClassId) : r.name c = h.name c := by
  rw [name, hr.entries, ClassTree.name]
  cases h.entries[c.index]? <;> rfl

theorem InStep.parent?_eq (hr : r.InStep h) (c : ClassId) : r.parent? c = h.parent? c := by
  rw [parent?, hr.entries, ClassTree.parent?]

theorem InStep.byName?_eq_none_iff (hr : r.InStep h) {name : String} :
    r.byName? name = none ↔ ∀ e ∈ h.entries, e.name ≠ name := by
  rw [hr.byName?_eq, ClassTree.byName?, Option.map_eq_none_iff, List.findIdx?_eq_none_iff]
  simp only [beq_eq_false_iff_ne]

/-- The tree after a call is the one with the same classes. -/
theorem InStep.register (hr : r.InStep h) (name : String) (parent : ClassId) :
    (r.register name parent).2.InStep
      (((h.register name parent).toOption.map (·.2)).getD h) := by
  rw [ClassTree.register]
  rcases r.register_cases name parent with
    ⟨htaken, heq⟩ | ⟨hfree, hparent, heq⟩ | ⟨hfree, hparent, heq⟩ <;> rw [heq]
  · rw [dif_neg (mt hr.byName?_eq_none_iff.2 htaken)]
    exact hr
  · rw [IsRegistered, hr.entries] at hparent
    rw [dif_pos (hr.byName?_eq_none_iff.1 hfree), dif_neg hparent]
    exact hr
  · have hfree := hr.byName?_eq_none_iff.1 hfree
    rw [IsRegistered, hr.entries] at hparent
    rw [dif_pos hfree, dif_pos hparent]
    exact ⟨by rw [insert, hr.entries]; rfl, named_insert hr.named _ (hr.entries ▸ hfree)⟩

/-- The classes after some calls, whatever each of them gave. -/
def after (calls : List (String × ClassId)) : ClassIndex :=
  calls.foldl (fun r call => (r.register call.1 call.2).2) builtin

end ClassIndex

def ClassTree.after (calls : List (String × ClassId)) : ClassTree :=
  calls.foldl (fun h call => ((h.register call.1 call.2).toOption.map (·.2)).getD h) .builtin

namespace ClassIndex

variable {r : ClassIndex} {h : ClassTree} {c : ClassId}

theorem inStep_after (calls : List (String × ClassId)) : (after calls).InStep (.after calls) := by
  induction calls using List.reverseRecOn with
  | nil => exact inStep_builtin
  | append_singleton calls call ih =>
    rw [after, ClassTree.after, List.foldl_append, List.foldl_append]
    change ((after calls).register call.1 call.2).2.InStep
      ((((ClassTree.after calls).register call.1 call.2).toOption.map (·.2)).getD (.after calls))
    exact ih.register call.1 call.2

/-! ## The way up -/

theorem ancestor?_succ (r : ClassIndex) (c : ClassId) (n : Nat) :
    r.ancestor? c (n + 1) = (r.parent? c).bind (r.ancestor? · n) := by
  induction n with
  | zero =>
    rw [ancestor?, ancestor?, Option.bind_some]
    cases r.parent? c <;> rfl
  | succ n ih =>
    rw [ancestor?, ih, Option.bind_assoc]
    rfl

/-- The bound on the number of ancestors cuts nothing off. -/
theorem InStep.getElem?_ancestorsWithin (hr : r.InStep h) {n : Nat} (hn : c.index ≤ n) (k : Nat) :
    (h.ancestorsWithin n c)[k]? = r.ancestor? c k := by
  induction n generalizing c k with
  | zero =>
    obtain ⟨i⟩ := c
    obtain rfl : i = 0 := Nat.le_zero.1 hn
    have hnone : h.parent? .object = none :=
      Option.eq_none_iff_forall_not_mem.2 fun p hp => h.not_isParent_object p hp
    cases k with
    | zero => rfl
    | succ k => rw [ancestor?_succ, hr.parent?_eq]; exact (congrArg (Option.bind · _) hnone).symm
  | succ n ih =>
    rw [ClassTree.ancestorsWithin]
    cases hp : h.parent? c with
    | none =>
      cases k with
      | zero => rfl
      | succ k => rw [ancestor?_succ, hr.parent?_eq, hp]; rfl
    | some p =>
      have hlt : p.index < c.index := ClassTree.IsParent.index_lt hp
      cases k with
      | zero => rfl
      | succ k => rw [ancestor?_succ, hr.parent?_eq, hp]; exact ih (by omega) k

/-! ## After any calls -/

/-- Whatever was registered before, and whichever calls failed: a call fails exactly if its name is taken or
its parent is not there, and then it changes nothing; otherwise the new class stands at the end. Every class
but `object` has a parent that is older. The way up from any class ends without meeting a class twice, and in
`object` if the class is registered. Assignability is a partial order on all ids, and of two classes above
one class one is above the other. A name leads to a class just when the class is registered and has it. The
tree without the index has the same classes and finds the same. -/
theorem treeOrder_after (calls : List (String × ClassId)) :
    (∀ name parent, (∃ e, ((after calls).register name parent).1 = .error e) ↔
      (after calls).byName? name ≠ none ∨ ¬ (after calls).IsRegistered parent) ∧
    (∀ name parent e, ((after calls).register name parent).1 = .error e →
      ((after calls).register name parent).2 = after calls) ∧
    (∀ name parent c, ((after calls).register name parent).1 = .ok c →
      c = ⟨(after calls).entries.length⟩ ∧
        ((after calls).register name parent).2.entries =
          (after calls).entries ++ [⟨name, some parent⟩]) ∧
    (∀ c, (after calls).IsRegistered c → c ≠ .object →
      ∃ p, (after calls).parent? c = some p ∧ p.index < c.index) ∧
    (∀ c, (∀ n, ((ClassTree.after calls).ancestors c)[n]? = (after calls).ancestor? c n) ∧
      ((ClassTree.after calls).ancestors c).Nodup ∧
      ((after calls).IsRegistered c →
        ((ClassTree.after calls).ancestors c).getLast? = some .object)) ∧
    IsPartialOrder ClassId (fun a b => (ClassTree.after calls).isAssignable a b = true) ∧
    (∀ a b c, (ClassTree.after calls).isAssignable c a = true →
      (ClassTree.after calls).isAssignable c b = true →
        (ClassTree.after calls).isAssignable a b = true ∨
        (ClassTree.after calls).isAssignable b a = true) ∧
    (∀ name c, (after calls).byName? name = some c ↔
      (after calls).IsRegistered c ∧ (after calls).name c = name) ∧
    (ClassTree.after calls).entries = (after calls).entries ∧
    ∀ name, (ClassTree.after calls).byName? name = (after calls).byName? name := by
  have hr := inStep_after calls
  have hsize {c : ClassId} : (after calls).IsRegistered c ↔ c.index < (ClassTree.after calls).size := by
    rw [IsRegistered, hr.entries, ClassTree.size]
  refine ⟨fun name parent => error_iff, fun name parent e => register_of_error,
    fun name parent c => register_of_ok, fun c hc hne => ?_, fun c => ⟨fun n => ?_, ?_, fun hc => ?_⟩, ?_,
    fun a b c => ClassTree.isAssignable_or, fun name c => ?_, hr.entries.symm,
    fun name => (hr.byName?_eq name).symm⟩
  · obtain ⟨p, hp⟩ := ClassTree.exists_isParent (hsize.1 hc) hne
    exact ⟨p, (hr.parent?_eq c).trans hp, hp.index_lt⟩
  · exact hr.getElem?_ancestorsWithin (Nat.le_refl _) n
  · exact ClassTree.nodup_ancestorsWithin _ _ c
  · exact ClassTree.getLast?_ancestorsWithin (Nat.le_refl _) (hsize.1 hc)
  · exact {
      refl := ClassTree.isAssignable_refl _
      trans := fun a b c => ClassTree.isAssignable_trans
      antisymm := fun a b => ClassTree.isAssignable_antisymm }
  · rw [hr.byName?_eq, hr.name_eq, hsize, ClassTree.byName?_eq_some_iff]

/-- Dogs below animals, and below dogs a class with the name that is given to classes not registered. Between
them a name that is taken and a parent that is not there. -/
def kennel : List (String × ClassId) := [
  ("animal", .object), ("dog", ⟨6⟩), ("animal", .string), ("cat", ⟨99⟩), ("<unknown>", ⟨7⟩)]

/-- The calls that fail have added nothing, so the last class is the ninth. All ids that are not registered
are called as it is, but its name leads to it. -/
theorem treeOrder_after_kennel :
    ((after (kennel.take 2)).register "animal" .string).1 = .error (.alreadyRegistered "animal") ∧
    ((after (kennel.take 2)).register "animal" .string).2 = after (kennel.take 2) ∧
    ((after (kennel.take 4)).register "<unknown>" ⟨7⟩).1 = .ok ⟨8⟩ ∧
    ((after (kennel.take 4)).register "<unknown>" ⟨7⟩).2.entries =
      (after (kennel.take 4)).entries ++ [⟨"<unknown>", some ⟨7⟩⟩] ∧
    (after kennel).IsRegistered ⟨8⟩ ∧
    (∃ p, (after kennel).parent? ⟨8⟩ = some p ∧ p.index < 8) ∧
    ((ClassTree.after kennel).ancestors ⟨8⟩).getLast? = some .object ∧
    ((ClassTree.after kennel).isAssignable ⟨7⟩ ⟨6⟩ = true ∨
      (ClassTree.after kennel).isAssignable ⟨6⟩ ⟨7⟩ = true) ∧
    (after kennel).name ⟨99⟩ = "<unknown>" ∧ (after kennel).byName? "<unknown>" = some ⟨8⟩ := by
  obtain ⟨-, hfailed, -⟩ := treeOrder_after (kennel.take 2)
  obtain ⟨-, -, hadded, -⟩ := treeOrder_after (kennel.take 4)
  obtain ⟨-, -, -, hparent, hancestors, -, hchain, hnames, -⟩ := treeOrder_after kennel
  have hregistered : (after kennel).IsRegistered ⟨8⟩ := by
    show 8 < 9
    decide
  exact ⟨rfl, hfailed _ _ _ rfl, rfl, (hadded _ _ ⟨8⟩ rfl).2, hregistered,
    hparent ⟨8⟩ hregistered (by decide), (hancestors ⟨8⟩).2.2 hregistered,
    hchain ⟨7⟩ ⟨6⟩ ⟨8⟩ rfl rfl, rfl, (hnames _ _).2 ⟨hregistered, rfl⟩⟩

end ClassIndex

end Phrasebook
