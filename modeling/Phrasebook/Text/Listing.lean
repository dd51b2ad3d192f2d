import Phrasebook.Text.Property

/-!
Lists in text: parts separated by commas and conjunctions, outside quotes and parentheses. A
conjunction stands between blanks, and may follow a comma.
-/

namespace Phrasebook.Text

def conjunction? (t : Text) : Option (String × Text) :=
  let rest := t.dropWhile isBlank
  let word := rest.takeWhile (!isBlank ·)
  let after := rest.drop word.length
  let name := String.ofList (word.map Char.toLower)
  if t.head?.any isBlank && after.head?.any isBlank &&
      (name == "and" || name == "or" || name == "nor") then
    some (name, after.dropWhile isBlank)
  else none

/-- The parts and the conjunctions between them; `part` is what the current part holds so far, last
character first. -/
def listParts : (fuel : Nat) → (depth : Int) → (quoted : Bool) → (part : Text) → Text →
    List Text × List String
  | 0, _, _, part, _ => ([part.reverse], [])
  | _ + 1, _, _, part, [] => ([part.reverse], [])
  | fuel + 1, depth, quoted, part, c :: t =>
    if c = '"' then listParts fuel depth (!quoted) (c :: part) t
    else if quoted then listParts fuel depth quoted (c :: part) t
    else if c = '(' then listParts fuel (depth + 1) quoted (c :: part) t
    else if c = ')' then listParts fuel (depth - 1) quoted (c :: part) t
    else if c = ',' ∧ depth = 0 then
      match conjunction? t with
      | some (name, rest) =>
        let (ps, cs) := listParts fuel depth quoted [] rest
        (part.reverse :: ps, name :: cs)
      | none =>
        let (ps, cs) := listParts fuel depth quoted [] t
        (part.reverse :: ps, cs)
    else if isBlank c ∧ depth = 0 then
      match conjunction? (c :: t) with
      | some (name, rest) =>
        let (ps, cs) := listParts fuel depth quoted [] rest
        (part.reverse :: ps, name :: cs)
      | none => listParts fuel depth quoted (c :: part) t
    else listParts fuel depth quoted (c :: part) t

/-- The parts of a list of two or more, and whether it stands for all of them: it does unless every
conjunction is "or" and there is one. -/
def splitList? (t : Text) : Option (List Text × Bool) :=
  let (ps, cs) := listParts t.length 0 false [] t
  let ps := ps.map trim
  if ps.length < 2 || ps.any (·.isEmpty) then none
  else some (ps, !(!cs.isEmpty && cs.all (· == "or")))

/-- The inside of quotes around a text without further quotes. -/
def unquoted? (t : Text) : Option Text :=
  match t with
  | '"' :: rest =>
    if rest.getLast? = some '"' && !rest.dropLast.contains '"' then some rest.dropLast else none
  | _ => none

end Phrasebook.Text
