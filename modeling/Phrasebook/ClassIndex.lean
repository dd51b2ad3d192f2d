import Phrasebook.Class

/-!
Classes with an index of their names beside the list. A call adds a class or gives an error; nothing but
the calls themselves keeps the list in order and the index in step with it.
-/

namespace Phrasebook

/-- The registered classes in order, and the index of names. What was put into the index last stands
first in it. -/
structure ClassIndex where
  entries : List ClassEntry
  named : List (String × ClassId)

namespace ClassIndex

def insert (r : ClassIndex) (name : String) (parent : Option ClassId) : ClassId × ClassIndex :=
  let c : ClassId := ⟨r.entries.length⟩
  (c, ⟨r.entries ++ [⟨name, parent⟩], (name, c) :: r.named⟩)

def builtin : ClassIndex :=
  ClassTree.builtinEntries.foldl (fun r e => (r.insert e.name e.parent).2) ⟨[], []⟩

/-- Adds a class below `parent`, unless its name is taken or there is no such parent. -/
def register (r : ClassIndex) (name : String) (parent : ClassId) :
    Except ClassError ClassId × ClassIndex :=
  if (r.named.lookup name).isSome then (.error (.alreadyRegistered name), r)
  else if r.entries.length ≤ parent.index then (.error (.unknownParent name), r)
  else
    let (c, r) := r.insert name (some parent)
    (.ok c, r)

def byName? (r : ClassIndex) (name : String) : Option ClassId := r.named.lookup name

def name (r : ClassIndex) (c : ClassId) : String :=
  ((r.entries[c.index]?).map (·.name)).getD "<unknown>"

def parent? (r : ClassIndex) (c : ClassId) : Option ClassId :=
  r.entries[c.index]?.bind (·.parent)

/-- The class `n` steps upwards from `c`, if the way goes so far. -/
def ancestor? (r : ClassIndex) (c : ClassId) : Nat → Option ClassId
  | 0 => some c
  | n + 1 => (r.ancestor? c n).bind r.parent?

end ClassIndex

end Phrasebook
