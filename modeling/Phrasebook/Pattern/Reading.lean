import Phrasebook.Pattern.Error

/-!
Reading a pattern from its text.

    [x]        optional part
    (a|b|c)    choice; a branch may begin with a number and the mark sign
    <regex>    regular expression
    %types%    slot: a minus for nullable, then a star for literals only or a tilde for expressions
               only, then type names with slashes between them
    \c         the character c itself

A bar outside all brackets makes the whole text a choice. The inside of a bracket is read by the
same rules, with its own offset, and is shorter than what encloses it.
-/

namespace Phrasebook.Pattern

variable [RegexEngine]

/-- The inside of the bracket that a text begins with, and what follows the bracket. -/
def enclosed? (opener closer : Char) (t : Text) : Option (Text × Text) := do
  let close ← t.closing? 0 opener closer
  let (front, back) ← t.cut? close
  some (front.tail, back.tail)

def maxMark : Nat := Nat.pow 2 31 - 1

def decimalValue? (digits : Text) : Option Nat :=
  digits.foldlM (fun n c => if c.isDigit then some (10 * n + (c.toNat - '0'.toNat)) else none) 0

/-- The mark in front of a branch, and the rest of the branch. A branch at byte `i` that begins with
digits and the mark sign has a mark, and then it must fit. -/
def mark? (i : Nat) (branch : Text) : Except PatternError (Option (Int32 × Text)) :=
  let digits := branch.takeWhile Text.isDigit
  match digits, branch.drop digits.length with
  | _ :: _, c :: rest =>
    if c = markSign then
      match decimalValue? digits with
      | some n =>
        if n ≤ maxMark then .ok (some (Int32.ofNat n, rest)) else .error (.markTooLarge digits i)
      | none => .error (.markTooLarge digits i)
    else .ok none
  | _, _ => .ok none

def markWidth (branch rest : Text) : Nat := branch.width - rest.width

abbrev Reader := Nat → Text → Except PatternError Pattern

def branch (read : Reader) (i : Nat) (t : Text) : Except PatternError (Int32 × Pattern) := do
  match ← mark? i t with
  | some (mark, rest) => return (mark, ← read (i + markWidth t rest) rest)
  | none => return (0, ← read i t)

def branches (read : Reader) (base : Nat) (parts : List (Nat × Text)) :
    Except PatternError Pattern := do
  let bs ← parts.mapM fun (i, part) => branch read (base + i) part
  return .choice bs

/-- The inside of an optional part; a single marked branch is a choice of one. -/
def optionalInside (read : Reader) (base : Nat) (t : Text) : Except PatternError Pattern := do
  if t.splitBars.length = 1 then
    match ← mark? base t with
    | some (mark, rest) =>
      let p ← read (base + markWidth t rest) rest
      return .choice [(mark, p)]
    | none => read base t
  else read base t

/-- The types of a slot, in order; the first bad name is the error. -/
def slotTypes (types : TypeNames) (i : Nat) (spec : Text) :
    List Text → Except PatternError (List SlotType)
  | [] => return []
  | name :: names => do
    if name = [] then throw (.invalidSlot spec i)
    match types (String.ofList name) with
    | none => throw (.unknownType name i)
    | some t => return t :: (← slotTypes types i spec names)

/-- The slot whose first percent sign is at byte `i`. -/
def slotOf (types : TypeNames) (i : Nat) (spec : Text) : Except PatternError Pattern := do
  let (nullable, t) := match spec with
    | '-' :: t => (true, t)
    | t => (false, t)
  let (accepts, names) := match t with
    | '~' :: t => (Acceptance.expressionsOnly, t)
    | '*' :: t => (Acceptance.literalsOnly, t)
    | t => (Acceptance.both, t)
  if names = [] ∨ ¬ names.all (fun c => Text.isWord c || c == '/') then throw (.invalidSlot spec i)
  return .slot (← slotTypes types i spec (Text.splitWhen (· == '/') names)) accepts nullable

/-- The plain text collected so far, last character first, in front of what follows it. -/
def flush (plain : Text) (parts : List Pattern) : List Pattern :=
  if plain = [] then parts else .literal plain.reverse :: parts

/-- The parts of a text without outer bars, from byte `i` on; `plain` is the plain text directly in
front of it, last character first. -/
def parts (types : TypeNames) (read : Reader) :
    (fuel i : Nat) → (plain : Text) → Text → Except PatternError (List Pattern)
  | 0, _, plain, _ => return flush plain []
  | _ + 1, _, plain, [] => return flush plain []
  | fuel + 1, i, plain, c :: t =>
    match c with
    | '[' => do
      let some (inside, rest) := enclosed? '[' ']' (c :: t) | throw (.unmatchedOpening '[' i)
      let p ← optionalInside read (i + 1) inside
      let ps ← parts types read fuel (i + inside.width + 2) [] rest
      return flush plain (.optional p :: ps)
    | '(' => do
      let some (inside, rest) := enclosed? '(' ')' (c :: t) | throw (.unmatchedOpening '(' i)
      let p ← branches read (i + 1) inside.splitBars
      let ps ← parts types read fuel (i + inside.width + 2) [] rest
      return flush plain (p :: ps)
    | '<' => do
      let some (inside, rest) := enclosed? '<' '>' (c :: t) | throw (.unmatchedOpening '<' i)
      let g ← (RegexPart.ofSource inside).mapError fun message =>
        @PatternError.invalidRegex message inside i
      let ps ← parts types read fuel (i + inside.width + 2) [] rest
      return flush plain (.regex g :: ps)
    | '%' => do
      let spec := t.takeWhile (· ≠ '%')
      let _ :: rest := t.drop spec.length | throw (.unmatchedPercent i)
      let p ← slotOf types i spec
      let ps ← parts types read fuel (i + Text.width spec + 2) [] rest
      return flush plain (p :: ps)
    | '\\' =>
      match t with
      | [] => throw (.trailingEscape i)
      | e :: rest => parts types read fuel (i + 1 + e.utf8Size) (e :: plain) rest
    | ']' => throw (.unmatchedClosing ']' i)
    | ')' => throw (.unmatchedClosing ')' i)
    | '>' => throw (.unmatchedClosing '>' i)
    | c => parts types read fuel (i + c.utf8Size) (c :: plain) t

/-- Reads a text that stands at byte `base`, with brackets nested less than `fuel` deep. -/
def readWithin (types : TypeNames) : (fuel : Nat) → Reader
  | 0, _, _ => return .literal []
  | fuel + 1, base, t => do
    if t.splitBars.length > 1 then branches (readWithin types fuel) base t.splitBars
    else return .ofParts (← parts types (readWithin types fuel) t.length base [] t)

def ofText (types : TypeNames) (t : Text) : Except PatternError Pattern :=
  readWithin types (t.length + 1) 0 t

end Phrasebook.Pattern
