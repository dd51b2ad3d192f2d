import Phrasebook.Text.Basic
import Phrasebook.Text.Table.Case

/-!
Comparison without regard to case. Two characters agree when they are equal or have the same lower
case; what is compared is always one character with one character, so agreeing texts have the same
length in characters but not always the same width.
-/

namespace Phrasebook.Text

namespace Table.Run

def covers (r : Run) (n : Nat) : Bool :=
  r.first ≤ n && n ≤ r.last && (n - r.first) % r.step == 0

def apply (r : Run) (n : Nat) : Nat := (n + r.shift).toNat

def codes (r : Run) : List Nat :=
  (List.range ((r.last - r.first) / r.step + 1)).map fun i => r.first + i * r.step

def source? (r : Run) (n : Nat) : Option Nat :=
  let m := (n - r.shift).toNat
  if r.covers m && r.apply m == n then some m else none

end Table.Run

/-- The image of `n` under the first run that maps it; else `n`. -/
def mapCode (runs : List Table.Run) (n : Nat) : Nat :=
  match runs.find? (·.covers n) with
  | some r => r.apply n
  | none => n

/-- The lower case of a character: one character, or an `i` with a dot for the dotted capital. -/
def lower (c : Char) : Text :=
  if c = '\u0130' then ['i', '\u0307']
  else [Char.ofNat (mapCode (Table.caseShared ++ Table.lowerOnly) c.toNat)]

def sameLetter (c d : Char) : Bool := c == d || lower c == lower d

/-- The width of the beginning of the text that agrees with `word` character by character. -/
def agreeing? : (word : Text) → Text → Option Nat
  | [], _ => some 0
  | _ :: _, [] => none
  | w :: ws, c :: t =>
    if sameLetter c w then (agreeing? ws t).map (c.utf8Size + ·) else none

def occursAt? (t : Text) (i : Nat) (word : Text) : Option Nat := do
  let rest ← t.after? i
  let n ← agreeing? word rest
  some (i + n)

/-- How many bytes into the text `word` occurs first. -/
def firstOccurrence? (word : Text) : Text → Option Nat
  | [] => if word = [] then some 0 else none
  | c :: t =>
    if (agreeing? word (c :: t)).isSome then some 0
    else (firstOccurrence? word t).map (c.utf8Size + ·)

def find? (t : Text) (i : Nat) (word : Text) : Option Nat := do
  let rest ← t.after? i
  let n ← firstOccurrence? word rest
  some (i + n)

/-- The code points that simple case folding maps to the same one as `n`, with that one first. -/
def codeVariants (n : Nat) : List Nat :=
  let runs := Table.caseShared ++ Table.foldOnly
  let base := mapCode runs n
  base :: runs.filterMap (·.source? base)

end Phrasebook.Text
