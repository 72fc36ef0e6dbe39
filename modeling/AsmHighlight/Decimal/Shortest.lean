-- SUMMARY: The shortest decimal text that reads back as a given double-precision number.
import AsmHighlight.Decimal.Binary64
import AsmHighlight.Decimal.Integer

/-!
# Shortest decimal text

A number is shown with the fewest significant digits that read back as the same
number, and among those with the digits nearest to it. It is written
positionally, with at least one digit after the point, when its decimal
exponent lies between -4 and 15, and otherwise with an exponent of at least two
digits.
-/

namespace AsmHighlight.Decimal

/-- The decimal exponent of a positive quotient `n / d`: the greatest power of
    ten that does not exceed it. -/
def decimalExponent (n d : Nat) : Int :=
  if d ≤ n then ((Nat.toDigits 10 (n / d)).length : Int) - 1
  else
    match (List.range 400).find? fun k => d ≤ n * Nat.pow 10 (k + 1) with
    | some k => -((k : Int) + 1)
    | none => -400

/-- The digits nearest to the quotient `n / d` on the grid of multiples of
    `10 ^ unit` that read back as `x`, where such digits exist. -/
def digitsOnGrid (x : Binary64) (negative : Bool) (n d : Nat) (unit : Int) : Option Nat :=
  let top := n * Nat.pow 10 (-unit).toNat
  let bottom := d * Nat.pow 10 unit.toNat
  let below := top / bottom
  let above := below + 1
  let readsBack (digits : Nat) : Bool := decide (Binary64.ofDecimal negative digits unit = x)
  let twice := 2 * (top % bottom)
  let nearer := if twice < bottom ∨ (twice = bottom ∧ below % 2 = 0) then below else above
  let farther := if nearer = below then above else below
  if readsBack nearer then some nearer
  else if readsBack farther then some farther
  else none

/-- The fewest digits, with the power of ten of the last one, that read back as
    the positive number `x = n / d`. -/
def shortestDigits (x : Binary64) (negative : Bool) (n d : Nat) : Nat × Int :=
  let exponent := decimalExponent n d
  let found := (List.range 17).findSome? fun (k : Nat) =>
    let unit := exponent - k
    (digitsOnGrid x negative n d unit).map fun digits => (digits, unit)
  found.getD (0, 0)

/-- The digits without trailing zeros, and the power of ten of the last one. -/
def dropZeros : (fuel : Nat) → Nat → Int → Nat × Int
  | 0, digits, unit => (digits, unit)
  | fuel + 1, digits, unit =>
    if digits % 10 = 0 ∧ digits ≠ 0 then dropZeros fuel (digits / 10) (unit + 1)
    else (digits, unit)

/-- Significant digits laid out around the decimal point. The first digit has the
    power of ten `exponent`. -/
def layout (digits : List Char) (exponent : Int) : List Char :=
  if -4 ≤ exponent ∧ exponent < 0 then
    '0' :: '.' :: List.replicate (-exponent - 1).toNat '0' ++ digits
  else if 0 ≤ exponent ∧ exponent < 16 then
    let whole := exponent.toNat + 1
    let front := digits.take whole ++ List.replicate (whole - digits.length) '0'
    let back := digits.drop whole
    front ++ '.' :: (if back.isEmpty then ['0'] else back)
  else
    let power := (toString exponent.natAbs).toList
    let power := if power.length < 2 then '0' :: power else power
    let sign := if exponent < 0 then '-' else '+'
    match digits with
    | [] => []
    | [c] => c :: 'e' :: sign :: power
    | c :: rest => c :: '.' :: rest ++ 'e' :: sign :: power

/-- The shortest decimal text of a number. -/
def Binary64.text : Binary64 → String
  | .nan => "nan"
  | .infinite false => "inf"
  | .infinite true => "-inf"
  | .finite negative mantissa exponent =>
    let body :=
      if mantissa = 0 then "0.0"
      else
        let n := mantissa * Nat.pow 2 exponent.toNat
        let d := Nat.pow 2 (-exponent).toNat
        let (digits, unit) := shortestDigits (.finite negative mantissa exponent) negative n d
        let (digits, unit) := dropZeros 20 digits unit
        let shown := (toString digits).toList
        String.ofList (layout shown (unit + shown.length - 1))
    if negative then "-" ++ body else body

end AsmHighlight.Decimal
