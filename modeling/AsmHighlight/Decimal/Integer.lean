-- SUMMARY: Integers as decimal text, with a bound on the number of digits in both directions.

/-!
# Decimal integers

Converting between integers and decimal text is bounded: neither direction
handles more than `maxDigits` digits. Reading counts every digit, leading zeros
included. Other bases have no bound, so a value can be read from hexadecimal
text and still be too long to write.
-/

namespace AsmHighlight.Decimal

/-- The number of digits that decimal conversion handles. -/
def maxDigits : Nat := 4300

/-- A conversion that needs more than `maxDigits` digits. -/
inductive Overlong where
  /-- A decimal literal of this many digits was to be read. -/
  | reading (digits : Nat)
  /-- A value was to be written as decimal text. -/
  | writing
  deriving DecidableEq, Repr

def Overlong.message : Overlong → String
  | .reading digits =>
    s!"Exceeds the limit ({maxDigits} digits) for integer string conversion: " ++
      s!"value has {digits} digits; use sys.set_int_max_str_digits() to increase the limit"
  | .writing =>
    s!"Exceeds the limit ({maxDigits} digits) for integer string conversion; " ++
      "use sys.set_int_max_str_digits() to increase the limit"

/-- The number that a list of digits, most significant first, stands for. -/
def ofDigits (base : Nat) (digits : List Nat) : Nat :=
  digits.foldl (fun value digit => value * base + digit) 0

/-- Reads decimal digits, most significant first. -/
def read (digits : List Nat) : Except Overlong Nat :=
  if digits.length ≤ maxDigits then .ok (ofDigits 10 digits)
  else .error (.reading digits.length)

/-- The decimal text of an integer of any length. -/
def text (n : Int) : String :=
  toString n

/-- The integer has no decimal text within the bound. -/
def isOverlong (n : Int) : Bool :=
  Nat.pow 10 maxDigits ≤ n.natAbs

/-- Writes an integer as decimal text. -/
def write (n : Int) : Except Overlong String :=
  if isOverlong n then .error .writing else .ok (text n)

end AsmHighlight.Decimal
