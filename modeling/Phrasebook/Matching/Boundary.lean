import Phrasebook.Pattern.Basic
import Phrasebook.Text.Case

/-!
Where a slot or a regular expression may end. What follows it in the pattern decides: the words and
regular expressions that could come next, a blank in front of another slot, and the end of the text
if all that follows can be left out.
-/

namespace Phrasebook

variable [RegexEngine]

/-- A sign that a slot ends here. -/
inductive Boundary where
  /-- A word, with blanks or the edge of the text on the sides that ask for them. -/
  | word (word : Text) (spacedBefore spacedAfter : Bool)
  | regex (part : RegexPart)
  | blank
  | textEnd

/-- What follows in the pattern: the rest of the innermost sequence first. -/
abbrev Tail := List (List Pattern)

namespace Pattern

mutual

/-- Whether a pattern begins with a slot, sequences opened up; `none` if it has no parts at all. -/
def slotFirst? : Pattern → Option Bool
  | literal _ => some false
  | sequence ps => slotFirstAll? ps
  | optional _ => some false
  | choice _ => some false
  | regex _ => some false
  | slot _ _ _ => some true

def slotFirstAll? : List Pattern → Option Bool
  | [] => none
  | p :: ps => (slotFirst? p).or (slotFirstAll? ps)

end

mutual

/-- The boundaries that a pattern offers to what stands in front of it, and whether one of its parts
must be present, so that nothing after it counts. `slotNext` tells whether a slot follows. -/
def boundaries (slotNext : Bool) : Pattern → List Boundary × Bool
  | literal t =>
    let word := Text.trim t
    if word = [] then (if slotNext then ([.blank], true) else ([], false))
    else ([.word word (t.head?.any Text.isBlank) (t.getLast?.any Text.isBlank)], true)
  | sequence ps => boundariesAll slotNext ps
  | optional p => ((boundaries false p).1, false)
  | choice bs => boundariesAny bs
  | regex g => ([.regex g], true)
  | slot _ _ _ => ([.blank], true)

def boundariesAll (slotNext : Bool) : List Pattern → List Boundary × Bool
  | [] => ([], false)
  | p :: ps =>
    let (here, closed) := boundaries ((slotFirstAll? ps).getD slotNext) p
    if closed then (here, true)
    else
      let (later, closed) := boundariesAll slotNext ps
      (here ++ later, closed)

def boundariesAny : List (Int32 × Pattern) → List Boundary × Bool
  | [] => ([], true)
  | (_, p) :: bs =>
    let (here, closed) := boundaries false p
    let (later, allClosed) := boundariesAny bs
    (here ++ later, closed && allClosed)

end

end Pattern

/-- The boundaries of a slot in front of `tail`, in the order in which they are tried. -/
def Tail.boundaries (tail : Tail) : List Boundary :=
  let (bs, closed) := Pattern.boundariesAll false tail.flatten
  if closed then bs else bs ++ [.textEnd]

namespace Text

/-- How far into the text `word` first occurs with the blanks it asks for around it; `previous` is
the character in front of the text. -/
def spacedOccurrence? (word : Text) (spacedBefore spacedAfter : Bool) :
    (previous : Option Char) → Text → Option Nat
  | _, [] => none
  | previous, c :: t =>
    if (agreeing? word (c :: t)).isSome && (!spacedBefore || previous.all isBlank) &&
        (!spacedAfter || ((c :: t).drop word.length).head?.all isBlank) then
      some 0
    else (spacedOccurrence? word spacedBefore spacedAfter (some c) t).map (c.utf8Size + ·)

def findSpaced? (t : Text) (start : Nat) (word : Text) (spacedBefore spacedAfter : Bool) :
    Option Nat := do
  let (front, rest) ← t.cut? start
  let n ← spacedOccurrence? word spacedBefore spacedAfter front.getLast? rest
  some (start + n)

def firstBlank? : Text → Option Nat
  | [] => none
  | c :: t => if isBlank c then some 0 else (firstBlank? t).map (c.utf8Size + ·)

end Text

/-- The place of the boundary in a text, searched from byte `start` on. A regular expression ends
a slot where it matches after the start. -/
def Boundary.place? (b : Boundary) (t : Text) (start : Nat) : Option Nat :=
  match b with
  | word w before after => t.findSpaced? start w before after
  | regex g => do
    let rest ← t.after? start
    let m ← (g.search.findAll rest).find? (0 < ·.start)
    some (start + m.start)
  | blank => do
    let rest ← t.after? start
    let n ← rest.firstBlank?
    some (start + n)
  | textEnd => some t.width

end Phrasebook
