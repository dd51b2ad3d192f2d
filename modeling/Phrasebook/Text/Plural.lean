import Phrasebook.Text.Property

/-!
Names with a singular and a plural spelling, declared together: `dog¦s` has the plural `dogs`, and
`part¦y¦ies` has `party` and `parties`. A plain word is spelled the same in both.
-/

namespace Phrasebook

/-- The sign between a stem and its endings, and between a mark and its branch. -/
def markSign : Char := '¦'

structure Spellings where
  singular : String
  plural : String
deriving DecidableEq, Repr

namespace Spellings

/-- The two spellings of one declared word; a word has at most two endings. -/
def ofWord? (word : Text) : Option (Text × Text) :=
  match Text.splitWhen (· == markSign) word with
  | [plain] => some (plain, plain)
  | [stem, ending] => some (stem, stem ++ ending)
  | [stem, one, many] => some (stem ++ one, stem ++ many)
  | _ => none

def ofSpec? (spec : Text) : Option Spellings := do
  let forms ← (Text.words spec).mapM ofWord?
  if forms.isEmpty then none
  else
    some {
      singular := String.ofList (Text.join [' '] (forms.map (·.1)))
      plural := String.ofList (Text.join [' '] (forms.map (·.2))) }

end Spellings

end Phrasebook
