import Phrasebook.Value

/-!
Conversions between classes of values. A conversion leads from one class to another and may have no
result for a value. Two conversions chain when the first arrives where the second departs, unless
one of them is barred from that side of a chain.
-/

namespace Phrasebook

/-- The sides of a chain that a conversion may not take. -/
structure ChainLimits where
  notFirst : Bool := false
  notSecond : Bool := false
deriving DecidableEq, Repr

namespace ChainLimits

def none : ChainLimits := ⟨false, false⟩

/-- What is barred for either is barred for the chain of both. -/
def union (a b : ChainLimits) : ChainLimits :=
  ⟨a.notFirst || b.notFirst, a.notSecond || b.notSecond⟩

end ChainLimits

structure Conversion where
  source : ClassId
  target : ClassId
  run : Value → Option Value
  limits : ChainLimits := .none

namespace Conversion

def andThen (f g : Conversion) : Conversion where
  source := f.source
  target := g.target
  run := fun v => (f.run v).bind g.run
  limits := f.limits.union g.limits

end Conversion

/-- A way to convert values declared as one class into another: a conversion, and the classes that
the actual value and the actual result have to be checked against. -/
inductive Route where
  | direct (run : Value → Option Value)
  | checkInput (source : ClassId) (run : Value → Option Value)
  | checkOutput (target : ClassId) (run : Value → Option Value)
  | checkBoth (source target : ClassId) (run : Value → Option Value)

namespace Route

/-- Converts a value; one that fails a check has no result. -/
def apply (r : Route) (v : Value) (classes : ClassTree) : Option Value :=
  match r with
  | direct run => run v
  | checkInput source run => if v.isInstance source classes then run v else none
  | checkOutput target run => (run v).filter (·.isInstance target classes)
  | checkBoth source target run =>
    if v.isInstance source classes then (run v).filter (·.isInstance target classes) else none

end Route

end Phrasebook
