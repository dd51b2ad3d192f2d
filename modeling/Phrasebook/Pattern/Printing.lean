import Phrasebook.Pattern.Basic

/-!
The text of a pattern. Literal text is written with a backslash before every character that has a
meaning of its own in patterns.
-/

namespace Phrasebook.Pattern

variable [RegexEngine]

def isSpecial (c : Char) : Bool :=
  c == '[' || c == ']' || c == '(' || c == ')' || c == '<' || c == '>' || c == '%' || c == '|' ||
    c == '\\' || c == markSign

def escaped : Text → Text
  | [] => []
  | c :: t => if isSpecial c then '\\' :: c :: escaped t else c :: escaped t

/-- A mark in front of its branch; the mark zero is not written. -/
def markText (mark : Int32) : Text :=
  if mark = 0 then []
  else if mark < 0 then '-' :: Nat.toDigits 10 (-mark.toInt).toNat ++ [markSign]
  else Nat.toDigits 10 mark.toInt.toNat ++ [markSign]

def acceptanceText : Acceptance → Text
  | .both => []
  | .expressionsOnly => ['~']
  | .literalsOnly => ['*']

def slotText (types : List SlotType) (accepts : Acceptance) (nullable : Bool) : Text :=
  '%' :: (if nullable then ['-'] else []) ++ acceptanceText accepts ++
    Text.join ['/'] (types.map (·.name.toList)) ++ ['%']

mutual

def toText : Pattern → Text
  | literal t => escaped t
  | sequence ps => toTextAll ps
  | optional p => '[' :: toText p ++ [']']
  | choice bs => '(' :: toTextBranches bs ++ [')']
  | regex g => '<' :: g.source ++ ['>']
  | slot types accepts nullable => slotText types accepts nullable

def toTextAll : List Pattern → Text
  | [] => []
  | p :: ps => toText p ++ toTextAll ps

def toTextBranches : List (Int32 × Pattern) → Text
  | [] => []
  | [(m, p)] => markText m ++ toText p
  | (m, p) :: b :: bs => markText m ++ toText p ++ '|' :: toTextBranches (b :: bs)

end

end Phrasebook.Pattern
