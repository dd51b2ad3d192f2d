import Phrasebook.TypeTable

/-!
Types with two indexes beside their list. One leads from a spelling to the type that has it, the other
from a class to the type that was registered for it first; both hold ids, which are positions in the list.
-/

namespace Phrasebook

/-- The registered types in order, and the indexes of spellings and of classes. What was put into an
index last stands first in it. -/
structure TypeIndex where
  types : List ValueType
  spelled : List (String × TypeId)
  firstOf : List (ClassId × TypeId)

namespace TypeIndex

def empty : TypeIndex := ⟨[], [], []⟩

def register (r : TypeIndex) (d : TypeDeclaration) : Except TypeError TypeId × TypeIndex :=
  match Spellings.ofSpec? d.spec with
  | none => (.error (.invalidSpec d.spec), r)
  | some s =>
    if (r.spelled.lookup s.singular).isSome || (r.spelled.lookup s.plural).isSome then
      (.error (.alreadyRegistered s.singular), r)
    else
      let id : TypeId := ⟨r.types.length⟩
      (.ok id, {
        types := r.types ++ [⟨id, s, d.kind, d.parse?, d.display?⟩]
        spelled := (s.plural, id) :: (s.singular, id) :: r.spelled
        firstOf := if (r.firstOf.lookup d.kind).isSome then r.firstOf else (d.kind, id) :: r.firstOf })

def get? (r : TypeIndex) (id : TypeId) : Option ValueType := r.types[id.index]?

def byName? (r : TypeIndex) (name : String) : Option ValueType := (r.spelled.lookup name).bind r.get?

/-- The type first registered for a class, or else for the nearest ancestor that has one. -/
def byClass? (r : TypeIndex) (c : ClassId) (classes : ClassTree) : Option ValueType :=
  ((classes.ancestors c).findSome? fun a => r.firstOf.lookup a).bind r.get?

/-- The type of a slot with this name: the singular spelling asks for one value. -/
def slotType? (r : TypeIndex) (name : String) : Option SlotType :=
  (r.byName? name).map fun t => ⟨t.id, name, t.spellings.singular == name⟩

end TypeIndex

end Phrasebook
