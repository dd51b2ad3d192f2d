import Phrasebook.Conversion.Graph
import Phrasebook.Text.Basic

/-!
Expressions and effects: what a text has been understood as. Both are known by what can be observed
of them. Three sorts of expression do not come from a phrase: literals, lists, and expressions whose
values are converted on the way out.
-/

namespace Phrasebook

inductive Expression.Origin where
  | literal
  | list
  | converted
  /-- Made by a phrase, for a name of its own. -/
  | phrase (name : String)
deriving DecidableEq, Repr

/-- An expression by what can be observed of it. -/
structure Expression where
  origin : Expression.Origin
  /-- The class that every value belongs to. -/
  returns : ClassId
  /-- There is at most one value. -/
  single : Bool
  /-- The values are fixed by the text. -/
  isLiteral : Bool
  values : List Value
  description : Text

namespace Expression

def value? (e : Expression) : Option Value := e.values.head?

def literal (returns : ClassId) (values : List Value) (source : Text) : Expression where
  origin := .literal
  returns := returns
  single := values.length ≤ 1
  isLiteral := true
  values := values
  description := source

def listText (conjunction : Text) : List Text → Text
  | [] => []
  | [t] => t
  | [t, last] => t ++ ' ' :: conjunction ++ ' ' :: last
  | t :: u :: v :: ts => t ++ ',' :: ' ' :: listText conjunction (u :: v :: ts)

/-- A list of expressions: the values of all items if they are joined by "and", else those of the
first item that has any. -/
def list (items : List Expression) (all : Bool) (returns : ClassId) : Expression where
  origin := .list
  returns := returns
  single := !all && items.all (·.single)
  isLiteral := items.all (·.isLiteral)
  values :=
    if all then items.flatMap (·.values)
    else ((items.map (·.values)).find? (!·.isEmpty)).getD []
  description :=
    listText (if all then "and".toList else "or".toList) (items.map (·.description))

/-- An expression as one of class `target`; values that do not convert are left out. -/
def converted (e : Expression) (target : ClassId) (graph : ConversionGraph) : Expression where
  origin := .converted
  returns := target
  single := e.single
  isLiteral := e.isLiteral
  values := e.values.filterMap (graph.convert? · target)
  description := e.description

end Expression

structure Effect where
  description : Text
  expressions : List Expression

end Phrasebook
