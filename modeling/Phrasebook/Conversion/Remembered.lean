import Phrasebook.Conversion.Graph

/-!
A conversion graph that remembers the routes it has been asked for, also where there was none. A
change of the graph forgets them.
-/

namespace Phrasebook

/-- A graph with the answers given since it last changed. -/
structure RememberedGraph where
  graph : ConversionGraph
  answers : List ((ClassId × ClassId) × Option Route)

namespace RememberedGraph

def empty (classes : ClassTree) : RememberedGraph := ⟨.empty classes, []⟩

def register (m : RememberedGraph) (e : Conversion) : Bool × RememberedGraph :=
  match m.graph.register e with
  | some g => (true, ⟨g, []⟩)
  | none => (false, m)

/-- Adds all chains and tells how many there were; the answers stay if nothing was added. -/
def close (m : RememberedGraph) : Nat × RememberedGraph :=
  let g := m.graph.closure
  let added := g.edges.length - m.graph.edges.length
  (added, if added = 0 then m else ⟨g, []⟩)

def route? (m : RememberedGraph) (source target : ClassId) : Option Route × RememberedGraph :=
  match m.answers.lookup (source, target) with
  | some r => (r, m)
  | none =>
    let r := m.graph.route? source target
    (r, { m with answers := ((source, target), r) :: m.answers })

def convert? (m : RememberedGraph) (v : Value) (target : ClassId) :
    Option Value × RememberedGraph :=
  if v.isInstance target m.graph.classes then (some v, m)
  else
    let (r, m) := m.route? v.kind target
    (r.bind (·.apply v m.graph.classes), m)

def mayConvert (m : RememberedGraph) (source target : ClassId) : Bool × RememberedGraph :=
  if m.graph.related source target then (true, m)
  else
    let (r, m) := m.route? source target
    (r.isSome, m)

end RememberedGraph

end Phrasebook
