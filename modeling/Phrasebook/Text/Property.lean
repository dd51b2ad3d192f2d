import Phrasebook.Text.Basic
import Phrasebook.Text.Table.Word
import Phrasebook.Text.Table.Printing

/-!
Properties of characters, looked up in tables of ascending ranges, and the cuts of a text at its
blanks.
-/

namespace Phrasebook.Text

/-- Whether `n` lies in one of the ranges, which are in ascending order. -/
def inRanges : List (Nat × Nat) → Nat → Bool
  | [], _ => false
  | (lo, hi) :: rs, n => if n < lo then false else n ≤ hi || inRanges rs n

/-- Code points with the property White_Space. -/
def Table.blank : List (Nat × Nat) := [
  (0x9, 0xd), (0x20, 0x20), (0x85, 0x85), (0xa0, 0xa0), (0x1680, 0x1680), (0x2000, 0x200a),
  (0x2028, 0x2029), (0x202f, 0x202f), (0x205f, 0x205f), (0x3000, 0x3000)]

def isBlank (c : Char) : Bool := inRanges Table.blank c.toNat

/-- Letters, in the wide sense of the property Alphabetic. -/
def isAlphabetic (c : Char) : Bool :=
  inRanges Table.letter c.toNat || inRanges Table.recentLetter c.toNat

def isWord (c : Char) : Bool := inRanges Table.letter c.toNat || inRanges Table.wordOnly c.toNat

def isDigit (c : Char) : Bool := inRanges Table.decimalDigit c.toNat

def isAlphanumeric (c : Char) : Bool :=
  isAlphabetic c || isDigit c || inRanges Table.otherNumber c.toNat

/-- Whether `c` stands for itself in quoted output. -/
def isPrintable (c : Char) : Bool :=
  !(inRanges Table.unprintable c.toNat || inRanges Table.combining c.toNat)

def trimStart (t : Text) : Text := t.dropWhile isBlank

def trimEnd (t : Text) : Text := (t.reverse.dropWhile isBlank).reverse

def trim (t : Text) : Text := trimEnd (trimStart t)

def words (t : Text) : List Text := (splitWhen isBlank t).filter (· ≠ [])

/-- The first place at or after byte `i` that no blank follows; the end if `i` is no place. -/
def skipBlank (t : Text) (i : Nat) : Nat :=
  match t.after? i with
  | some rest => i + width (rest.takeWhile isBlank)
  | none => width t

end Phrasebook.Text
