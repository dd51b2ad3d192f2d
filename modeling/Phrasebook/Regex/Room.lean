import Phrasebook.Regex.Basic

/-!
Bounds on regular expressions: how deep the parts of an expression may stand inside each other, and
how much room the expression may take when it is written out byte by byte, with every round of a
counted repetition on its own.
-/

namespace Phrasebook.Regex

def maxNesting : Nat := 250

def maxRoom : Nat := 10 * 1024 * 1024

def stateRoom : Nat := 32

def wayRoom : Nat := 4

def rangeRoom : Nat := 8

abbrev ByteRanges := List (Nat × Nat)

/-- The encodings of the numbers from `lo` to `hi` in a leading byte and `n` more with six bits each,
as rows of ranges in ascending order. `mark` is added to the leading byte. -/
def encodings : (n mark lo hi : Nat) → List ByteRanges
  | 0, mark, lo, hi => [[(mark + lo, mark + hi)]]
  | n + 1, mark, lo, hi =>
    let unit := Nat.pow 64 (n + 1)
    let under (lead lo hi : Nat) : List ByteRanges :=
      (encodings n 0x80 lo hi).map ((mark + lead, mark + lead) :: ·)
    let first := lo / unit
    let last := hi / unit
    if first = last then under first (lo % unit) (hi % unit)
    else
      let headless := lo % unit = 0
      let tailless := hi % unit = unit - 1
      let low := if headless then first else first + 1
      let high := if tailless then last + 1 else last
      (if headless then [] else under first (lo % unit) (unit - 1)) ++
      (if low < high then
        [(mark + low, mark + high - 1) :: List.replicate (n + 1) (0x80, 0xbf)] else []) ++
      (if tailless then [] else under last 0 (hi % unit))

/-- The widths of code points in UTF-8: the first and the last one of a width, the number of
bytes that follow the leading one, and the mark of the leading byte. -/
def widths : List (Nat × Nat × Nat × Nat) :=
  [(0, 0x7f, 0, 0), (0x80, 0x7ff, 1, 0xc0), (0x800, 0xd7ff, 2, 0xe0), (0xe000, 0xffff, 2, 0xe0),
    (0x10000, 0x10ffff, 3, 0xf0)]

def byteRows (s : CharSet) : List ByteRanges :=
  s.ranges.flatMap fun (lo, hi) =>
    widths.flatMap fun (first, last, n, mark) =>
      if max lo first ≤ min hi last then encodings n mark (max lo first) (min hi last) else []

def sharedBytes : ByteRanges → ByteRanges → Nat
  | a :: as, b :: bs => if a = b then sharedBytes as bs + 1 else 0
  | _, _ => 0

/-- The ranges in a list of rows, less those that a row shares with the one before it. -/
def freshBytes (previous : ByteRanges) : List ByteRanges → Nat
  | [] => 0
  | row :: rows => row.length - sharedBytes previous row + freshBytes row rows

/-- The room for a set. The bytes of a single character follow each other, a set of ASCII characters
is read by one state, and a set with other characters has one way for every row of bytes. -/
def setRoom (s : CharSet) : Nat :=
  let rows := byteRows s
  if s.isSingle then stateRoom * freshBytes [] rows
  else if s.ranges.all (·.2 < 0x80) then 2 * stateRoom + rangeRoom * rows.length
  else 2 * stateRoom + wayRoom * rows.length + stateRoom * freshBytes [] rows

def forkRoom : Nat := stateRoom + 2 * wayRoom

def Node.room : Node → Nat
  | empty => stateRoom
  | set s => setRoom s
  | look _ => stateRoom
  | seq a b => a.room + b.room
  | alt a b =>
    a.room + b.room + match b with
      | alt _ _ => wayRoom
      | _ => forkRoom + stateRoom
  | group _ a => a.room + 2 * stateRoom
  | rounds a 0 none _ => a.room + if a.consumes then forkRoom else 2 * forkRoom + stateRoom
  | rounds a min none _ => min * a.room + forkRoom
  | rounds a 0 (some 1) _ => a.room + forkRoom + stateRoom
  | rounds a min (some max) _ =>
    if min = max then min * a.room
    else (if min = 0 then stateRoom else min * a.room) + stateRoom + (max - min) * (a.room + forkRoom)

/-- The room around an expression: the whole match as a group, its end, and the search for its
beginning where that is free. -/
def searchRoom (n : Node) : Nat :=
  3 * stateRoom + if n.atStart then stateRoom else 2 * stateRoom + rangeRoom + forkRoom

def Node.isTooLarge (n : Node) : Bool := maxRoom < n.room + searchRoom n

end Phrasebook.Regex
