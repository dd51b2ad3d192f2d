import Phrasebook.Class
import Phrasebook.Decimal

/-!
Values that expressions produce: booleans, 64-bit integers, doubles, strings, and objects of
registered classes with named properties.
-/

namespace Phrasebook

inductive Value where
  | boolean (b : Bool)
  | integer (n : Int64)
  | decimal (x : Float)
  | string (s : String)
  /-- Property names are distinct; their order has no meaning. -/
  | object (kind : ClassId) (properties : List (String × Value))
deriving Repr

inductive ValueError where
  | expected (wanted found : String)
deriving DecidableEq, Repr

def ValueError.message : ValueError → String
  | expected wanted found => s!"Expected {wanted}, got {found}"

namespace Value

/-- The class that the value was made as. -/
def kind : Value → ClassId
  | boolean _ => .boolean
  | integer _ => .integer
  | decimal _ => .decimal
  | string _ => .string
  | object c _ => c

def sort : Value → String
  | boolean _ => "boolean"
  | integer _ => "integer"
  | decimal _ => "decimal"
  | string _ => "string"
  | object _ _ => "object"

def isInstance (v : Value) (c : ClassId) (classes : ClassTree) : Bool :=
  classes.isAssignable v.kind c

mutual

/-- Equality of values: doubles compare as numbers, so NaN differs from itself, and properties
compare by name. -/
def same : Value → Value → Bool
  | boolean a, boolean b => a == b
  | integer a, integer b => a == b
  | decimal a, decimal b => a == b
  | string a, string b => a == b
  | object c ps, object d qs => c == d && ps.length == qs.length && sameProperties ps qs
  | _, _ => false

def sameProperties : List (String × Value) → List (String × Value) → Bool
  | [], _ => true
  | (k, v) :: ps, qs =>
    match qs.lookup k with
    | some w => same v w && sameProperties ps qs
    | none => false

end

def property? (v : Value) (name : String) : Option Value :=
  match v with
  | object _ ps => ps.lookup name
  | _ => none

def asNumber : Value → Except ValueError Float
  | integer n => .ok n.toFloat
  | decimal x => .ok x
  | v => .error (.expected "number" v.sort)

/-- Whole doubles count as integers; beyond the range of integers the nearest one stands in. -/
def asInteger : Value → Except ValueError Int64
  | integer n => .ok n
  | decimal x =>
    if Decimal.isWhole x then .ok x.toInt64 else .error (.expected "integer" (decimal x).sort)
  | v => .error (.expected "integer" v.sort)

def asBoolean : Value → Except ValueError Bool
  | boolean b => .ok b
  | v => .error (.expected "boolean" v.sort)

def asString : Value → Except ValueError String
  | string s => .ok s
  | v => .error (.expected "string" v.sort)

/-- A number as a value: an integer if it is whole and in range, else a decimal. -/
def ofNumber (x : Float) : Value :=
  if Decimal.isWhole x && x.abs < Float.ofNat (Nat.pow 2 63) then integer x.toInt64 else decimal x

/-- Numeric comparison; the first value that is no number is the error. -/
def less (v w : Value) : Except ValueError Bool := do
  let a ← v.asNumber
  let b ← w.asNumber
  return a < b

def greater (v w : Value) : Except ValueError Bool := do
  let a ← v.asNumber
  let b ← w.asNumber
  return a > b

def toText : Value → String
  | boolean b => if b then "true" else "false"
  | integer n => toString n.toInt
  | decimal x => Decimal.toText x
  | string s => s
  | object _ ps => s!"object\x7b {ps.length} properties \x7d"

end Value

end Phrasebook
