import Phrasebook.Value
import Phrasebook.Text.Basic

/-!
How the standard types read their literals.
-/

namespace Phrasebook.Standard

def natural? (digits : Text) : Option Nat :=
  if digits ≠ [] ∧ digits.all Char.isDigit then
    some (digits.foldl (fun n c => 10 * n + (c.toNat - '0'.toNat)) 0)
  else none

def int64? (n : Int) : Option Int64 :=
  if Int64.minValue.toInt ≤ n ∧ n ≤ Int64.maxValue.toInt then some (Int64.ofInt n) else none

/-- A whole number with at most one sign. -/
def integer? (t : Text) : Option Value := do
  let n ← match t with
    | '-' :: digits => (natural? digits).map fun n => -(n : Int)
    | '+' :: digits => (natural? digits).map Int.ofNat
    | digits => (natural? digits).map Int.ofNat
  let n ← int64? n
  some (.integer n)

/-- A number with a decimal point and at least one digit, and at most a minus in front. -/
def decimal? (t : Text) : Option Value :=
  let (negative, t) := match t with
    | '-' :: t => (true, t)
    | t => (false, t)
  let whole := t.takeWhile Char.isDigit
  match t.drop whole.length with
  | '.' :: fraction =>
    if fraction.all Char.isDigit ∧ (whole ≠ [] ∨ fraction ≠ []) then
      let x := Decimal.ofNumeral whole fraction
      some (.decimal (if negative then -x else x))
    else none
  | _ => none

def number? (t : Text) : Option Value := (integer? t).or (decimal? t)

/-- A truth value in any case of ASCII letters. -/
def boolean? (t : Text) : Option Value :=
  match String.ofList (t.map Char.toLower) with
  | "true" => some (.boolean true)
  | "false" => some (.boolean false)
  | _ => none

end Phrasebook.Standard
