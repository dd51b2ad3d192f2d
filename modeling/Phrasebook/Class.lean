/-!
Classes of values. Every class except `object` has one parent, registered before it, so the chain of
parents of a class is finite and ends in `object`. A class is assignable to its ancestors and itself;
everything is assignable to `object`.
-/

namespace Phrasebook

/-- A class by its position in the order of registration; it need not have been registered. -/
structure ClassId where
  index : Nat
deriving DecidableEq, Repr

namespace ClassId

def object : ClassId := ⟨0⟩
def number : ClassId := ⟨1⟩
def integer : ClassId := ⟨2⟩
def decimal : ClassId := ⟨3⟩
def string : ClassId := ⟨4⟩
def boolean : ClassId := ⟨5⟩

end ClassId

structure ClassEntry where
  name : String
  parent : Option ClassId
deriving DecidableEq, Repr

inductive ClassError where
  | alreadyRegistered (name : String)
  | unknownParent (name : String)
deriving DecidableEq, Repr

def ClassError.message : ClassError → String
  | alreadyRegistered name => s!"class '{name}' is already registered"
  | unknownParent name => s!"unknown parent class for '{name}'"

/-- The first entry alone has no parent, all others have an earlier one, and names are distinct. -/
structure WellOrdered (entries : List ClassEntry) : Prop where
  root : entries.head?.map (·.parent) = some none
  parents : ∀ i e, entries[i + 1]? = some e → ∃ p, e.parent = some p ∧ p.index ≤ i
  names : (entries.map (·.name)).Nodup

structure ClassTree where
  entries : List ClassEntry
  wellOrdered : WellOrdered entries

namespace ClassTree

def builtinEntries : List ClassEntry := [
  ⟨"object", none⟩, ⟨"number", some .object⟩, ⟨"integer", some .number⟩,
  ⟨"decimal", some .number⟩, ⟨"string", some .object⟩, ⟨"boolean", some .object⟩]

theorem wellOrdered_builtinEntries : WellOrdered builtinEntries where
  root := rfl
  parents := by
    intro i e h
    match i with
    | 0 | 1 | 2 | 3 | 4 => cases h; exact ⟨_, rfl, by decide⟩
    | _ + 5 => cases h
  names := by decide

def builtin : ClassTree := ⟨builtinEntries, wellOrdered_builtinEntries⟩

def size (h : ClassTree) : Nat := h.entries.length

theorem wellOrdered_append {entries : List ClassEntry} (h : WellOrdered entries) {name : String}
    {parent : ClassId} (hname : ∀ e ∈ entries, e.name ≠ name)
    (hparent : parent.index < entries.length) :
    WellOrdered (entries ++ [⟨name, some parent⟩]) where
  root := by
    cases entries with
    | nil => simp at hparent
    | cons e es => exact h.root
  parents := by
    intro i e he
    rw [List.getElem?_append] at he
    split at he
    · exact h.parents i e he
    · rename_i hi
      obtain hi' : i + 1 - entries.length = 0 := by
        cases hj : i + 1 - entries.length with
        | zero => rfl
        | succ j => simp [hj] at he
      rw [hi'] at he
      cases he
      exact ⟨parent, rfl, by omega⟩
  names := by
    rw [List.map_append, List.nodup_append]
    refine ⟨h.names, by simp, ?_⟩
    intro a ha b hb hab
    obtain ⟨e, he, rfl⟩ := List.mem_map.1 ha
    simp only [List.map_cons, List.map_nil, List.mem_singleton] at hb
    exact hname e he (hab.trans hb)

def register (h : ClassTree) (name : String) (parent : ClassId) :
    Except ClassError (ClassId × ClassTree) :=
  if hname : ∀ e ∈ h.entries, e.name ≠ name then
    if hparent : parent.index < h.entries.length then
      .ok (⟨h.size⟩,
        ⟨h.entries ++ [⟨name, some parent⟩], wellOrdered_append h.wellOrdered hname hparent⟩)
    else .error (.unknownParent name)
  else .error (.alreadyRegistered name)

def byName? (h : ClassTree) (name : String) : Option ClassId :=
  (h.entries.findIdx? (·.name == name)).map ClassId.mk

/-- The name of a class; one that is not registered is called unknown. -/
def name (h : ClassTree) (c : ClassId) : String :=
  match h.entries[c.index]? with
  | some e => e.name
  | none => "<unknown>"

def parent? (h : ClassTree) (c : ClassId) : Option ClassId :=
  h.entries[c.index]?.bind (·.parent)

def ancestorsWithin (h : ClassTree) : Nat → ClassId → List ClassId
  | 0, c => [c]
  | n + 1, c =>
    match h.parent? c with
    | none => [c]
    | some p => c :: h.ancestorsWithin n p

/-- `c` and all its ancestors, nearest first. The parent of a class has a smaller index, so the
index bounds their number. -/
def ancestors (h : ClassTree) (c : ClassId) : List ClassId := h.ancestorsWithin c.index c

/-- Whether a value of class `a` can be used where class `b` is expected. -/
def isAssignable (h : ClassTree) (a b : ClassId) : Bool :=
  b == .object || (h.ancestors a).contains b

end ClassTree

end Phrasebook
