/-!
The settings of a book.
-/

namespace Phrasebook

structure Settings where
  /-- Tell when a text asked for is not understood. -/
  logUnresolved : Bool := true
  /-- How many recent phrases are remembered for each class; zero is no limit. -/
  recentCapacity : Nat := 0
  /-- How many lines may be resolved at a time; zero is as many as there are processors. -/
  parallelLines : Nat := 0
deriving DecidableEq, Repr

end Phrasebook
