import Phrasebook.Regex.CharSet

/-!
Regular expressions as trees: sets of characters, tests of the place, and the combinations of these.
Sequences and alternatives are built flat, to the right, and in a normal form: what is empty drops
out of a sequence, alternative characters become a set, and alternatives that all begin alike have
their common beginning taken out.
-/

namespace Phrasebook

inductive Look where
  | textStart
  | textEnd
  | lineStart
  | lineEnd
  | wordBoundary
  | noWordBoundary
  | wordStart
  | wordEnd
  | wordStartHalf
  | wordEndHalf
deriving DecidableEq, Repr

namespace Regex

/-- The parts of a regular expression. Alternatives and the readings of a repetition are ordered:
the first alternative, and more rounds of a greedy repetition, are preferred. -/
inductive Node where
  | empty
  | set (s : CharSet)
  | look (l : Look)
  | seq (a b : Node)
  | alt (a b : Node)
  /-- From `min` to `max` rounds; `none` is no upper bound. -/
  | rounds (a : Node) (min : Nat) (max : Option Nat) (greedy : Bool)
  /-- A group that records what it matched. -/
  | group (index : Nat) (a : Node)
deriving DecidableEq, Repr

namespace Node

def groupCount : Node → Nat
  | empty => 0
  | set _ => 0
  | look _ => 0
  | seq a b => max a.groupCount b.groupCount
  | alt a b => max a.groupCount b.groupCount
  | rounds a _ _ _ => a.groupCount
  | group i a => max i a.groupCount

/-- The least number of characters of a match; `none` if a part is a set without characters, which
nothing matches. -/
def minLength? : Node → Option Nat
  | empty => some 0
  | set s => if s.isEmpty then none else some 1
  | look _ => some 0
  | seq a b => do some ((← a.minLength?) + (← b.minLength?))
  | alt a b => do some (min (← a.minLength?) (← b.minLength?))
  | rounds a min _ _ => a.minLength?.map (min * ·)
  | group _ a => a.minLength?

/-- Whether it is plain that every match has a character. -/
def consumes (n : Node) : Bool := n.minLength?.any (0 < ·)

def isWidthless : Node → Bool
  | empty => true
  | set _ => false
  | look _ => true
  | seq a b => a.isWidthless && b.isWidthless
  | alt a b => a.isWidthless && b.isWidthless
  | rounds a _ max _ => max.isSome && a.isWidthless
  | group _ a => a.isWidthless

/-- Whether every match begins at the start of the text, as far as the tests at the beginning
tell. -/
def atStart : Node → Bool
  | empty => false
  | set _ => false
  | look l => l == .textStart
  | seq a b => a.atStart || (a.isWidthless && b.atStart)
  | alt a b => a.atStart && b.atStart
  | rounds a min _ _ => 0 < min && a.atStart
  | group _ a => a.atStart

def parts : Node → List Node
  | empty => []
  | seq a b => a.parts ++ b.parts
  | n => [n]

def branches : Node → List Node
  | alt a b => a.branches ++ b.branches
  | n => [n]

def ofParts : List Node → Node
  | [] => empty
  | [n] => n
  | n :: ns => seq n (ofParts ns)

def sequence (ns : List Node) : Node := ofParts (ns.flatMap parts)

def ofBranches : List Node → Node
  | [] => set .empty
  | [n] => n
  | n :: ns => alt n (ofBranches ns)

def set? : Node → Option CharSet
  | set s => some s
  | _ => none

def commonLength : List Node → List Node → Nat
  | a :: as, b :: bs => if a = b then commonLength as bs + 1 else 0
  | _, _ => 0

/-- How many parts all alternatives have in common at their beginning, if each is a sequence. -/
def sharedLength (branches : List (List Node)) : Nat :=
  match branches with
  | [] => 0
  | first :: others =>
    if branches.any (·.length < 2) then 0
    else others.foldl (fun n b => min n (commonLength first b)) first.length

/-- Alternatives that are not alternatives themselves. They are one set if they are all single
characters, or all of them sets that are not. -/
def alternatives (ns : List Node) : Node :=
  match ns.mapM set? with
  | some ss =>
    if ss.all (·.isSingle) || !ss.any (·.isSingle) then set (ss.foldl .union .empty) else ofBranches ns
  | none => ofBranches ns

def choice (ns : List Node) : Node :=
  let branches := ns.flatMap branches
  let sequences := branches.map parts
  let shared := sharedLength sequences
  if branches.length < 2 || shared = 0 then alternatives branches
  else
    let rests := sequences.map fun b => ofParts (b.drop shared)
    let rest := alternatives (rests.flatMap Node.branches)
    sequence (((sequences.head?.getD []).take shared) ++ [rest])

/-- Rounds of one expression. A single round is the expression itself, and no round is the empty
expression; where a round has no width, a second one adds nothing. -/
def repeated (n : Node) (min : Nat) (max : Option Nat) (greedy : Bool) : Node :=
  let (min, max) :=
    if n.isWidthless then (Nat.min min 1, some (Nat.min (max.getD 1) 1)) else (min, max)
  if max = some 0 then empty
  else if min = 1 ∧ max = some 1 then n
  else rounds n min max greedy

end Node

end Regex

end Phrasebook
