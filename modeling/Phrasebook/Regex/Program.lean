import Phrasebook.Regex.Basic

/-!
Programs for matching. A program is a graph: a state reads a character, tests the place, notes the
border of a group, or forks into two ways of which the first is preferred. The order of the forks
carries the preferences of the expression, and a place in the text is passed in one state at most
once, so the shape of the graph around repetitions matters: a repetition whose rounds may be empty
decides before the first round and after every round in different states.
-/

namespace Phrasebook.Regex

/-- A state of a program. A state names those that follow it by their positions. -/
inductive State where
  | accept
  | read (s : CharSet) (next : Nat)
  | look (l : Look) (next : Nat)
  | enter (group next : Nat)
  | leave (group next : Nat)
  /-- Two ways on, the preferred one first. -/
  | fork (first second : Nat)
deriving DecidableEq, Repr

namespace State

/-- The decision about one more round, for a repetition that prefers more rounds or fewer. -/
def decision (greedy : Bool) (round exit : Nat) : State :=
  if greedy then fork round exit else fork exit round

end State

abbrev States := Array State

def State.addTo (s : State) (p : States) : Nat × States := (p.size, p.push s)

def times (build : Nat → States → Nat × States) : (n next : Nat) → States → Nat × States
  | 0, next, p => (next, p)
  | n + 1, next, p =>
    let (next, p) := build next p
    times build n next p

/-- Adds states for an expression in front of the state `next`, and answers with the position of the
first one. -/
def Node.build : Node → (next : Nat) → States → Nat × States
  | empty, next, p => (next, p)
  | set s, next, p => (State.read s next).addTo p
  | look l, next, p => (State.look l next).addTo p
  | seq a b, next, p =>
    let (middle, p) := b.build next p
    a.build middle p
  | alt a b, next, p =>
    let (first, p) := a.build next p
    let (second, p) := b.build next p
    (State.fork first second).addTo p
  | group i a, next, p =>
    let (last, p) := (State.leave i next).addTo p
    let (inner, p) := a.build last p
    (State.enter i inner).addTo p
  | rounds a min none greedy, next, p =>
    -- the state after a round is known before the round is built, and filled in afterwards
    let (after, p) := State.accept.addTo p
    let (round, p) := a.build after p
    let p := p.setIfInBounds after (.decision greedy round next)
    match min with
    | 0 => if a.consumes then (after, p) else (State.decision greedy round next).addTo p
    | min + 1 => times a.build min round p
  | rounds a min (some max) greedy, next, p =>
    let optional (round : Nat) (p : States) : Nat × States :=
      let (inner, p) := a.build round p
      (State.decision greedy inner next).addTo p
    let (first, p) := times optional (max - min) next p
    times a.build min first p

structure Program where
  states : States
  start : Nat
deriving DecidableEq, Repr

def Program.ofNode (n : Node) : Program :=
  let (start, states) := n.build 0 #[.accept]
  ⟨states, start⟩

structure Machine where
  body : Node
  program : Program
  program_eq : program = .ofNode body

namespace Machine

def ofNode (n : Node) : Machine := ⟨n, .ofNode n, rfl⟩

def groups (m : Machine) : Nat := m.body.groupCount

end Machine

end Regex

end Phrasebook
