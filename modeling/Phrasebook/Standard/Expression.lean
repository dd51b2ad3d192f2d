import Phrasebook.Expression
import Phrasebook.Standard.Literal

/-!
The expressions and the effect of the standard phrases. An expression whose parts lack a value of
the right sort has no value itself.
-/

namespace Phrasebook.Standard

inductive Operator where
  | add
  | subtract
  | multiply
  | divide
deriving DecidableEq, Repr

namespace Operator

def symbol : Operator → Char
  | add => '+'
  | subtract => '-'
  | multiply => '*'
  | divide => '/'

/-- The exact result on integers, unless it is too large; quotients are not exact. -/
def onIntegers (op : Operator) (a b : Int64) : Option Int64 :=
  match op with
  | add => int64? (a.toInt + b.toInt)
  | subtract => int64? (a.toInt - b.toInt)
  | multiply => int64? (a.toInt * b.toInt)
  | divide => none

def onDoubles (op : Operator) (a b : Float) : Float :=
  match op with
  | add => a + b
  | subtract => a - b
  | multiply => a * b
  | divide => a / b

def onValues (op : Operator) (v w : Value) : Option Value :=
  let exact := match v, w with
    | .integer a, .integer b => op.onIntegers a b
    | _, _ => none
  match exact with
  | some n => some (.integer n)
  | none =>
    match v.asNumber, w.asNumber with
    | .ok a, .ok b => some (.ofNumber (op.onDoubles a b))
    | _, _ => none

end Operator

def made (name : String) (returns : ClassId) (value : Option Value) (description : Text) :
    Expression where
  origin := .phrase name
  returns := returns
  single := true
  isLiteral := false
  values := value.toList
  description := description

def arithmetic (left : Expression) (op : Operator) (right : Expression) : Expression :=
  made "arithmetic" .number
    (do op.onValues (← left.value?) (← right.value?))
    (left.description ++ ' ' :: op.symbol :: ' ' :: right.description)

def square? (v : Value) : Option Value :=
  match v with
  | .integer n =>
    match int64? (n.toInt * n.toInt) with
    | some m => some (.integer m)
    | none => some (.ofNumber (n.toFloat * n.toFloat))
  | v => v.asNumber.toOption.map fun x => .ofNumber (x * x)

def squared (inner : Expression) : Expression :=
  made "squared" .number (inner.value?.bind square?)
    ("the number ".toList ++ inner.description ++ " squared".toList)

def whether (inner : Expression) : Expression :=
  made "whether" .boolean inner.value? ("whether ".toList ++ inner.description)

def comparison (left : Expression) (greater : Bool) (right : Expression) : Expression :=
  made "comparison" .boolean
    (do
      let v ← left.value?
      let w ← right.value?
      let result ← (if greater then v.greater w else v.less w).toOption
      some (.boolean result))
    (left.description ++ (if greater then " is greater than " else " is less than ").toList ++
      right.description)

def length (inner : Expression) : Expression :=
  made "length" .integer
    (do
      let s ← (← inner.value?).asString.toOption
      some (.integer (Int64.ofNat s.length)))
    ("length of ".toList ++ inner.description)

/-- The characters from one position to another, both included and counted from one. Positions
outside the text are moved to its ends. -/
def excerpt (s : String) (first last : Int) : String :=
  let start := (max first 1).toNat - 1
  let stop := (max last 0).toNat
  String.ofList ((s.toList.drop start).take (stop - start))

def substring (text first last : Expression) : Expression :=
  made "substring" .string
    (do
      let i ← (← first.value?).asInteger.toOption
      let j ← (← last.value?).asInteger.toOption
      match ← text.value? with
      | .string s => some (.string (excerpt s i.toInt j.toInt))
      | _ => none)
    ("substring ".toList ++ text.description ++ " from ".toList ++ first.description ++
      " to ".toList ++ last.description)

def print (inner : Expression) : Effect where
  description := "print ".toList ++ inner.description
  expressions := [inner]

end Phrasebook.Standard
