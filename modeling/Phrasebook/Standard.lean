import Phrasebook.Book
import Phrasebook.Regex.Threads
import Phrasebook.Standard.Expression

/-!
The standard vocabulary: types for the built-in classes, two conversions, and phrases for numbers,
truth values and strings.
-/

namespace Phrasebook.Standard

/-- The types, in order. Strings have no reader of their own: they are quoted. -/
def types : List TypeDeclaration := [
  { spec := "object¦s".toList, kind := .object },
  { spec := "number¦s".toList, kind := .number, parse? := some number? },
  { spec := "integer¦s".toList, kind := .integer, parse? := some integer? },
  { spec := "decimal¦s".toList, kind := .decimal, parse? := some decimal? },
  { spec := "string¦s".toList, kind := .string },
  { spec := "boolean¦s".toList, kind := .boolean, parse? := some boolean? }]

/-- Whether a number is not zero. It is barred from chains: by way of it every decimal would turn
into zero or one. -/
def isNonzero : Conversion where
  source := .number
  target := .boolean
  run := fun v => v.asNumber.toOption.map fun x => .boolean (x != 0)
  limits := ⟨true, true⟩

def asBit : Conversion where
  source := .boolean
  target := .integer
  run := fun v => v.asBoolean.toOption.map fun b => .integer (if b then 1 else 0)

def makeArithmetic : ExpressionMaker := fun o => do
  let op ←
    if o.mark = 1 then pure Operator.add
    else if o.mark = 2 then pure Operator.subtract
    else if o.mark = 3 then pure Operator.multiply
    else if o.mark = 4 then pure Operator.divide
    else throw (.reason s!"unexpected operator mark {o.mark.toInt}")
  let (left, o) ← o.take
  let (right, _) ← o.take
  return arithmetic left op right

def makeSquared : ExpressionMaker := fun o => do
  let (inner, _) ← o.take
  return squared inner

def makeWhether : ExpressionMaker := fun o => do
  let (inner, _) ← o.take
  return whether inner

def makeComparison : ExpressionMaker := fun o => do
  let greater ←
    if o.mark = 1 then pure true
    else if o.mark = 2 then pure false
    else throw (.reason s!"unexpected comparison mark {o.mark.toInt}")
  let (left, o) ← o.take
  let (right, _) ← o.take
  return comparison left greater right

def makeLength : ExpressionMaker := fun o => do
  let (inner, _) ← o.take
  return length inner

def makeSubstring : ExpressionMaker := fun o => do
  let (text, o) ← o.take
  let (first, o) ← o.take
  let (last, _) ← o.take
  return substring text first last

def makePrint : EffectMaker := fun o => do
  let (inner, _) ← o.take
  return print inner

/-- The phrases for expressions: name, type of the result, pattern, maker. -/
def expressions : List (String × String × String × ExpressionMaker) := [
  ("arithmetic", "number", "%number% (1¦+|2¦-|3¦*|4¦/) %number%", makeArithmetic),
  ("squared", "number", "the number %number% squared", makeSquared),
  ("whether", "boolean", "whether %boolean%", makeWhether),
  ("comparison", "boolean", "%number% is (1¦greater|2¦less) than %number%", makeComparison),
  ("length", "integer", "[the] length of %string%", makeLength),
  ("substring", "string", "substring %string% from %number% to %number%", makeSubstring)]

inductive Error where
  | type (e : TypeError)
  | phrase (e : PhraseError)
deriving DecidableEq, Repr

def addTo (d : Draft) : Except Error Draft := do
  let d ← types.foldlM (fun d t => (d.addType t).mapError .type) d
  let d := (d.addConversion isNonzero).addConversion asBit
  let d ← expressions.foldlM (fun d (name, type, pattern, make) =>
    (d.addExpression name type [pattern.toList] Phrase.defaultPriority make).mapError .phrase) d
  (d.addEffect "print" ["print %strings%".toList] makePrint).mapError .phrase

/-- The draft of a book with the standard vocabulary and nothing else. The names of its types are
all different, so nothing is refused. -/
def draft (settings : Settings) : Draft :=
  let d : Draft := { settings := settings }
  match addTo d with
  | .ok d => d
  | .error _ => d

def book [RegexEngine] (settings : Settings) : Book := (draft settings).finish.1

end Phrasebook.Standard
