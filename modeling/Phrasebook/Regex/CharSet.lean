import Phrasebook.Text.Property
import Phrasebook.Text.Case

/-!
Sets of characters as ranges of code points. A set has one list of ranges: ascending, with a gap
between any two, so sets with the same characters are equal.
-/

namespace Phrasebook

structure CharSet where
  ranges : List (Nat × Nat)
deriving DecidableEq, Repr

namespace CharSet

def lastCode : Nat := 0x10ffff

/-- Joins ranges in ascending order of their beginnings wherever two meet or overlap; `lo` and `hi`
are the range that the next ones may join. -/
def joinFrom (lo hi : Nat) : List (Nat × Nat) → List (Nat × Nat)
  | [] => [(lo, hi)]
  | (a, b) :: rs =>
    if a ≤ hi + 1 then joinFrom lo (max hi b) rs else (lo, hi) :: joinFrom a b rs

def ofRanges (rs : List (Nat × Nat)) : CharSet :=
  match rs.mergeSort (fun r s => r.1 ≤ s.1) with
  | [] => ⟨[]⟩
  | (lo, hi) :: rs => ⟨joinFrom lo hi rs⟩

def empty : CharSet := ⟨[]⟩

def isEmpty (s : CharSet) : Bool := s.ranges.isEmpty

def isSingle (s : CharSet) : Bool :=
  match s.ranges with
  | [(lo, hi)] => lo == hi
  | _ => false

def range (first last : Char) : CharSet := ⟨[(first.toNat, last.toNat)]⟩

def single (c : Char) : CharSet := range c c

def union (a b : CharSet) : CharSet := ofRanges (a.ranges ++ b.ranges)

/-- What ranges leave out from `lo` on. -/
def gapsFrom (lo : Nat) : List (Nat × Nat) → List (Nat × Nat)
  | [] => if lo ≤ lastCode then [(lo, lastCode)] else []
  | (a, b) :: rs => if lo < a then (lo, a - 1) :: gapsFrom (b + 1) rs else gapsFrom (b + 1) rs

def complement (a : CharSet) : CharSet := ⟨gapsFrom 0 a.ranges⟩

def inter (a b : CharSet) : CharSet := (a.complement.union b.complement).complement

def blank : CharSet := ofRanges Text.Table.blank

def digit : CharSet := ofRanges Text.Table.decimalDigit

def word : CharSet := ofRanges (Text.Table.letter ++ Text.Table.wordOnly)

def hasCode (s : CharSet) (n : Nat) : Bool := Text.inRanges s.ranges n

def mem (s : CharSet) (c : Char) : Bool := s.hasCode c.toNat

/-- The set with every character's variants in case. -/
def anyCase (s : CharSet) : CharSet :=
  let variants := (Text.Table.caseShared ++ Text.Table.foldOnly).flatMap fun run =>
    run.codes.flatMap fun n =>
      let base := run.apply n
      if s.hasCode n || s.hasCode base then (Text.codeVariants base).map fun v => (v, v) else []
  if variants.isEmpty then s else ofRanges (s.ranges ++ variants)

end CharSet

end Phrasebook
