import Phrasebook.Text.Plural
import Phrasebook.Text.Brackets
import Phrasebook.Regex.Engine

/-!
Patterns: what the author of a phrase declares. A pattern is text to be met up to case and blanks,
with optional parts, marked alternatives, regular expressions, and slots for sub-expressions.
-/

namespace Phrasebook

/-- A registered type by its position in the order of registration. -/
structure TypeId where
  index : Nat
deriving DecidableEq, Repr

/-- A type as a pattern names it: the spelling tells whether several values are welcome. -/
structure SlotType where
  id : TypeId
  name : String
  single : Bool
deriving DecidableEq, Repr

namespace SlotType

def sameType (a b : SlotType) : Bool := a.id == b.id && a.single == b.single

end SlotType

abbrev TypeNames := String → Option SlotType

inductive Acceptance where
  | both
  | expressionsOnly
  | literalsOnly
deriving DecidableEq, Repr

variable [RegexEngine]

/-- A regular expression in a pattern, ready to match a whole region or to be searched for. Both
readings come from the source, so the source determines the group. -/
structure RegexPart where
  source : Text
  whole : Regex
  search : Regex
  whole_eq : RegexEngine.compile (Regex.anchored source) = .ok whole
  search_eq : RegexEngine.compile source = .ok search

namespace RegexPart

def ofSource (source : Text) : Except String RegexPart :=
  match hw : RegexEngine.compile (Regex.anchored source) with
  | .error message => .error message
  | .ok whole =>
    match hs : RegexEngine.compile source with
    | .error message => .error message
    | .ok search => .ok ⟨source, whole, search, hw, hs⟩

def ofSource? (source : Text) : Option RegexPart := (ofSource source).toOption

theorem ext_source {a b : RegexPart} (h : a.source = b.source) : a = b := by
  obtain ⟨s, w, e, hw, he⟩ := a
  obtain ⟨s', w', e', hw', he'⟩ := b
  cases h
  obtain rfl : w = w' := Except.ok.inj (hw.symm.trans hw')
  obtain rfl : e = e' := Except.ok.inj (he.symm.trans he')
  rfl

instance : DecidableEq RegexPart := fun a b =>
  if h : a.source = b.source then isTrue (ext_source h) else isFalse fun e => h (e ▸ rfl)

end RegexPart

inductive Pattern where
  | literal (text : Text)
  | sequence (parts : List Pattern)
  | optional (inner : Pattern)
  /-- The first branch that matches is taken, and its mark is part of the answer. -/
  | choice (branches : List (Int32 × Pattern))
  | regex (group : RegexPart)
  | slot (types : List SlotType) (accepts : Acceptance) (nullable : Bool)

namespace Pattern

/-- Parts one after the other; a single part stands for itself and none for the empty text. -/
def ofParts : List Pattern → Pattern
  | [] => literal []
  | [p] => p
  | ps => sequence ps

mutual

/-- The largest number of slots that one way through the tree passes, optional parts included. -/
def slotCount : Pattern → Nat
  | literal _ => 0
  | sequence ps => slotCountAll ps
  | optional p => slotCount p
  | choice bs => slotCountWidest bs
  | regex _ => 0
  | slot _ _ _ => 1

def slotCountAll : List Pattern → Nat
  | [] => 0
  | p :: ps => slotCount p + slotCountAll ps

def slotCountWidest : List (Int32 × Pattern) → Nat
  | [] => 0
  | (_, p) :: bs => max (slotCount p) (slotCountWidest bs)

end

mutual

/-- Equality of trees, with slots for the same types equal whatever the spelling of the types. -/
def same : Pattern → Pattern → Bool
  | literal s, literal t => s == t
  | sequence ps, sequence qs => sameAll ps qs
  | optional p, optional q => same p q
  | choice bs, choice cs => sameBranches bs cs
  | regex g, regex h => g == h
  | slot ts a n, slot us b m =>
    ts.length == us.length && (ts.zip us).all (fun (t, u) => t.sameType u) && a == b && n == m
  | _, _ => false

def sameAll : List Pattern → List Pattern → Bool
  | [], [] => true
  | p :: ps, q :: qs => same p q && sameAll ps qs
  | _, _ => false

def sameBranches : List (Int32 × Pattern) → List (Int32 × Pattern) → Bool
  | [], [] => true
  | (m, p) :: bs, (n, q) :: cs => m == n && same p q && sameBranches bs cs
  | _, _ => false

end

end Pattern

end Phrasebook
