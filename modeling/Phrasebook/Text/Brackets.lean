import Phrasebook.Text.Basic

/-!
Two scans for brackets. Both take a backslash and the character after it as plain text. One finds
the bracket that closes a given kind; the other cuts at the bars that stand outside brackets of any
kind.
-/

namespace Phrasebook.Text

/-- Width of the text before the `closer` that leaves none of the `depth` open brackets. -/
def closingIn? (opener closer : Char) : (depth : Nat) → Text → Option Nat
  | _, [] => none
  | depth, c :: t =>
    if c = '\\' then
      match t with
      | [] => none
      | e :: t => (closingIn? opener closer depth t).map (c.utf8Size + e.utf8Size + ·)
    else if c = opener then (closingIn? opener closer (depth + 1) t).map (c.utf8Size + ·)
    else if c = closer then
      match depth with
      | 0 => none
      | 1 => some 0
      | depth + 2 => (closingIn? opener closer (depth + 1) t).map (c.utf8Size + ·)
    else (closingIn? opener closer depth t).map (c.utf8Size + ·)

def closing? (t : Text) (i : Nat) (opener closer : Char) : Option Nat := do
  let rest ← t.after? i
  let n ← closingIn? opener closer 0 rest
  some (i + n)

/-- How a character changes the common depth of all kinds of brackets. -/
def depthChange (c : Char) : Int :=
  if c = '(' ∨ c = '[' ∨ c = '<' then 1 else if c = ')' ∨ c = ']' ∨ c = '>' then -1 else 0

def pushFirst (c : Char) : List Text → List Text
  | [] => [[c]]
  | p :: ps => (c :: p) :: ps

/-- The parts between the bars at common depth zero; escapes stay in the parts. -/
def barParts : (depth : Int) → Text → List Text
  | _, [] => [[]]
  | depth, c :: t =>
    if c = '\\' then
      match t with
      | [] => [[c]]
      | e :: t => pushFirst c (pushFirst e (barParts depth t))
    else if c = '|' ∧ depth = 0 then [] :: barParts depth t
    else pushFirst c (barParts (depth + depthChange c) t)

/-- The parts of a text cut at single bytes, each with its offset. -/
def placed (start : Nat) : List Text → List (Nat × Text)
  | [] => []
  | p :: ps => (start, p) :: placed (start + width p + 1) ps

def splitBars (t : Text) : List (Nat × Text) := placed 0 (barParts 0 t)

/-- The inside of the parentheses around the whole text, if its first character opens a parenthesis
that its last one closes. -/
def unwrap? (t : Text) : Option Text :=
  match t with
  | '(' :: _ => do
    let close ← t.closing? 0 '(' ')'
    if close + 1 = t.width then t.between? 1 close else none
  | _ => none

end Phrasebook.Text
