import Phrasebook.Text.Basic

/-!
Diagnostics that show a line of source with a caret under the place they are about.
-/

namespace Phrasebook

/-- Shows `message` under byte `index` of `source`; an index past the end points just past it. -/
def caret (message : String) (source : Text) (index : Nat) : String :=
  let index := min index source.width
  let column :=
    match source.before? index with
    | some start => start.length
    | none => index
  let gap := String.ofList (List.replicate column ' ')
  "\n".intercalate [
    s!"  --> pattern, column {column + 1}",
    "   |",
    s!"   | {String.ofList source}",
    s!"   | {gap}^ {message}",
    "   |"]

end Phrasebook
