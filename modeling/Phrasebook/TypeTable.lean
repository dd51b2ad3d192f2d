import Phrasebook.Pattern.Basic
import Phrasebook.Value

/-!
Types: names that patterns and callers use for classes of values. A type is found by either of its
spellings, or as the nearest one for a class.
-/

namespace Phrasebook

/-- A type before it is registered. -/
structure TypeDeclaration where
  spec : Text
  kind : ClassId
  parse? : Option (Text → Option Value) := none
  display? : Option (Value → String) := none

structure ValueType where
  id : TypeId
  spellings : Spellings
  kind : ClassId
  parse? : Option (Text → Option Value)
  display? : Option (Value → String)

inductive TypeError where
  | invalidSpec (spec : Text)
  | alreadyRegistered (name : String)
deriving DecidableEq, Repr

def TypeError.message : TypeError → String
  | invalidSpec spec => s!"invalid plural form declaration '{String.ofList spec}'"
  | alreadyRegistered name => s!"type '{name}' is already registered"

namespace ValueType

def name (t : ValueType) : String := t.spellings.singular

def isCalled (t : ValueType) (name : String) : Bool :=
  t.spellings.singular == name || t.spellings.plural == name

def parses (t : ValueType) : Bool := t.parse?.isSome

/-- Reads literal text with the type's own reader, if it has one. -/
def parse (t : ValueType) (text : Text) : Option Value := t.parse?.bind (· text)

def display (t : ValueType) (v : Value) : String :=
  match t.display? with
  | some show? => show? v
  | none => v.toText

end ValueType

structure TypeTable where
  types : List ValueType

namespace TypeTable

def empty : TypeTable := ⟨[]⟩

def size (ts : TypeTable) : Nat := ts.types.length

def byName? (ts : TypeTable) (name : String) : Option ValueType :=
  ts.types.find? (·.isCalled name)

/-- Adds a type; neither of its spellings may be taken. -/
def register (ts : TypeTable) (d : TypeDeclaration) : Except TypeError (TypeId × TypeTable) :=
  match Spellings.ofSpec? d.spec with
  | none => .error (.invalidSpec d.spec)
  | some spellings =>
    if (ts.byName? spellings.singular).isSome || (ts.byName? spellings.plural).isSome then
      .error (.alreadyRegistered spellings.singular)
    else
      let id : TypeId := ⟨ts.size⟩
      .ok (id, ⟨ts.types ++ [⟨id, spellings, d.kind, d.parse?, d.display?⟩]⟩)

def get? (ts : TypeTable) (id : TypeId) : Option ValueType := ts.types[id.index]?

/-- The type first registered for a class, or else for the nearest ancestor that has one. -/
def byClass? (ts : TypeTable) (c : ClassId) (classes : ClassTree) : Option ValueType :=
  (classes.ancestors c).findSome? fun a => ts.types.find? (·.kind == a)

/-- The type of a slot with this name: the singular spelling asks for one value. -/
def slotType? (ts : TypeTable) (name : String) : Option SlotType :=
  (ts.byName? name).map fun t => ⟨t.id, name, t.spellings.singular == name⟩

end TypeTable

end Phrasebook
