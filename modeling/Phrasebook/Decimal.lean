/-!
Doubles as decimal numbers: the shortest digits that read back as the same double, written without
an exponent, and the reading of plain decimal numerals.
-/

namespace Phrasebook.Decimal

/-- A finite magnitude is `mantissa * 2 ^ exponent`. It stands for every real in the interval that
reaches half-way to its two neighbours, ends included when `mantissa` is even; the lower neighbour
of a power of two is nearer. -/
structure Magnitude where
  mantissa : Nat
  exponent : Int
  nearBelow : Bool

def magnitude (x : Float) : Magnitude :=
  let bits := x.toBits.toNat
  let fraction : Nat := bits % Nat.pow 2 52
  let biased : Nat := bits / Nat.pow 2 52 % Nat.pow 2 11
  if biased = 0 then ⟨fraction, -1074, false⟩
  else ⟨fraction + Nat.pow 2 52, (biased : Int) - 1075, fraction = 0 && biased > 1⟩

def digitCount (n : Nat) : Nat := (Nat.toDigits 10 n).length

/-- `p` with `10 ^ (p - 1) ≤ num / den < 10 ^ p`, for positive `num`. -/
def decimalExponent (num den : Nat) : Int :=
  if den ≤ num then digitCount (num / den)
  else 1 - (digitCount ((den + num - 1) / num - 1) : Int)

/-- The shortest decimal `n * 10 ^ e` in the interval of a positive magnitude, `(n, e)`: of the
grids of 1, 2, … 17 digits the first with a point in the interval, and of two such points the one
nearer to the magnitude, the upper one if both are equally near. -/
def shortest (m : Magnitude) : Nat × Int :=
  -- the magnitude and the ends of its interval in quarters of the last binary place
  let value := 4 * m.mantissa
  let high := value + 2
  let low := if m.nearBelow then value - 1 else value - 2
  let closed := m.mantissa % 2 = 0
  let (num, den) :=
    if m.exponent ≥ 2 then (Nat.pow 2 (m.exponent - 2).toNat, 1)
    else (1, Nat.pow 2 (2 - m.exponent).toNat)
  let p := decimalExponent (value * num) den
  let attempt (digits : Nat) : Option (Nat × Int) :=
    let e := p - digits
    -- a quarter is `unit / grid` grid steps
    let unit := if e ≥ 0 then num else num * Nat.pow 10 (-e).toNat
    let grid := if e ≥ 0 then den * Nat.pow 10 e.toNat else den
    let inside (n : Nat) : Bool :=
      if closed then low * unit ≤ n * grid && n * grid ≤ high * unit
      else low * unit < n * grid && n * grid < high * unit
    let below := value * unit / grid
    match inside below, inside (below + 1) with
    | true, true =>
      if value * unit - below * grid < (below + 1) * grid - value * unit then some (below, e)
      else some (below + 1, e)
    | true, false => some (below, e)
    | false, true => some (below + 1, e)
    | false, false => none
  ((List.range 17).findSome? fun k => attempt (k + 1)).getD (0, 0)

def positional (n : Nat) (e : Int) : String :=
  if e ≥ 0 then toString (n * Nat.pow 10 e.toNat)
  else
    let places := (-e).toNat
    let fraction := (Nat.toDigits 10 (n % Nat.pow 10 places))
    let fraction := List.replicate (places - fraction.length) '0' ++ fraction
    let fraction := (fraction.reverse.dropWhile (· == '0')).reverse
    let whole := toString (n / Nat.pow 10 places)
    if fraction.isEmpty then whole else whole ++ "." ++ String.ofList fraction

def toText (x : Float) : String :=
  let negative := x.toBits.toNat ≥ Nat.pow 2 63
  let sign := if negative then "-" else ""
  if x.isNaN then "NaN"
  else if x.isInf then sign ++ "inf"
  else
    let m := magnitude x
    if m.mantissa = 0 then sign ++ "0"
    else
      let (n, e) := shortest m
      sign ++ positional n e

def isWhole (x : Float) : Bool := x.isFinite && x.floor == x

/-- Whether `n * 10 ^ e` is nearer to `2 ^ 1024` than to the largest double, so that no double is
near it. -/
def isBeyond (n : Nat) (e : Int) : Bool :=
  let digits : Int := digitCount n + e
  let bound : Nat := Nat.pow 2 1024 - Nat.pow 2 970
  -- `10 ^ 308 < bound < 10 ^ 309`
  if n = 0 ∨ digits < 309 then false
  else if 309 < digits then true
  else if 0 ≤ e then bound ≤ n * Nat.pow 10 e.toNat
  else bound * Nat.pow 10 (-e).toNat ≤ n

/-- The double nearest to the numeral of a digit sequence with one point in it. -/
def ofNumeral (whole fraction : List Char) : Float :=
  let n := (whole ++ fraction).foldl (fun n c => 10 * n + (c.toNat - '0'.toNat)) 0
  Float.ofScientific n true fraction.length

end Phrasebook.Decimal
