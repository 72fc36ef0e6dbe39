-- SUMMARY: Double-precision numbers as exact values, and the nearest one to a decimal.

/-!
# Double-precision numbers

A finite number is a sign, a mantissa below `2 ^ 53` and a power of two that is
at least `-1074`. `ofDecimal` gives the number nearest to `m * 10 ^ e`; of two
equally near ones it takes the one with the even mantissa, and what lies beyond
the largest finite number is infinite. All arithmetic is exact.
-/

namespace AsmHighlight.Decimal

/-- A double-precision number. -/
inductive Binary64 where
  | nan
  | infinite (negative : Bool)
  /-- `mantissa * 2 ^ exponent`, negated when `negative` is set. -/
  | finite (negative : Bool) (mantissa : Nat) (exponent : Int)
  deriving DecidableEq, Repr

/-- The quotient rounded to the nearest natural number, a half to the even one. -/
def roundDiv (numerator denominator : Nat) : Nat :=
  let quotient := numerator / denominator
  let twice := 2 * (numerator % denominator)
  if twice < denominator then quotient
  else if denominator < twice then quotient + 1
  else if quotient % 2 = 0 then quotient else quotient + 1

/-- The quotient `numerator / denominator`, divided by `2 ^ exponent`, as a
    quotient of natural numbers. -/
def scaled (numerator denominator : Nat) (exponent : Int) : Nat × Nat :=
  (numerator * Nat.pow 2 (-exponent).toNat, denominator * Nat.pow 2 exponent.toNat)

/-- The least power of two that a mantissa can be given for the quotient, which
    is positive: the mantissa then lies below `2 ^ 53`. -/
def exponentFor (numerator denominator : Nat) : Int :=
  let guess : Int := (numerator.log2 : Int) - denominator.log2 - 53
  let fits (e : Int) : Bool :=
    let (n, d) := scaled numerator denominator e
    n / d < Nat.pow 2 53
  let exponent := if fits guess then guess else if fits (guess + 1) then guess + 1 else guess + 2
  max exponent (-1074)

/-- The number nearest to a positive quotient. -/
def ofQuotient (negative : Bool) (numerator denominator : Nat) : Binary64 :=
  let exponent := exponentFor numerator denominator
  let (n, d) := scaled numerator denominator exponent
  let mantissa := roundDiv n d
  let (mantissa, exponent) :=
    if mantissa = Nat.pow 2 53 then (Nat.pow 2 52, exponent + 1) else (mantissa, exponent)
  if 971 < exponent then .infinite negative else .finite negative mantissa exponent

/-- The number nearest to `digits * 10 ^ exponent`. -/
def Binary64.ofDecimal (negative : Bool) (digits : Nat) (exponent : Int) : Binary64 :=
  if digits = 0 then .finite negative 0 (-1074)
  else if 400 < exponent then .infinite negative
  else if exponent + (digits.log2 : Int) < -1100 then .finite negative 0 (-1074)
  else ofQuotient negative (digits * Nat.pow 10 exponent.toNat)
    (Nat.pow 10 (-exponent).toNat)

end AsmHighlight.Decimal
