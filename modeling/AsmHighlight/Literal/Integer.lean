-- SUMMARY: Integer literals: their forms, their digits and their value.
import AsmHighlight.Decimal.Integer
import AsmHighlight.Literal.Name
import AsmHighlight.Text.Character

/-!
# Integer literals

A literal is an optional sign and then digits: decimal, or of base sixteen, two
or eight after `0x`, `0b` or `0o` in either case. The first place must be a
digit; after it underscores may stand anywhere and count for nothing. A decimal
literal may have at most `Decimal.maxDigits` digits.
-/

namespace AsmHighlight.Literal

/-- The value of a digit of the given base, which is at most sixteen. -/
def digitOf? (base : Nat) (c : Char) : Option Nat :=
  (Text.hexValue? c).filter (· < base)

/-- The digits of a text of digits and underscores. -/
def separatedDigits? (base : Nat) : List Char → Option (List Nat)
  | [] => some []
  | c :: rest =>
    if c = '_' then separatedDigits? base rest
    else
      match digitOf? base c, separatedDigits? base rest with
      | some d, some ds => some (d :: ds)
      | _, _ => none

/-- The digits of a text that starts with a digit and goes on with digits and
    underscores. -/
def digits? (base : Nat) : List Char → Option (List Nat)
  | [] => none
  | c :: rest => if c = '_' then none else separatedDigits? base (c :: rest)

/-- The base that a letter after a leading zero announces. -/
def radix? (c : Char) : Option Nat :=
  if c = 'x' ∨ c = 'X' then some 16
  else if c = 'b' ∨ c = 'B' then some 2
  else if c = 'o' ∨ c = 'O' then some 8
  else none

/-- A literal without its sign: the base, and the digits with the most significant
    one first. -/
structure Numeral where
  base : Nat
  digits : List Nat
  deriving DecidableEq, Repr

/-- Reads a literal without its sign. -/
def numeral? (cs : List Char) : Option Numeral :=
  match cs with
  | '0' :: mark :: rest =>
    match radix? mark with
    | some base => (digits? base rest).map (Numeral.mk base)
    | none => (digits? 10 cs).map (Numeral.mk 10)
  | _ => (digits? 10 cs).map (Numeral.mk 10)

def Numeral.value (n : Numeral) : Except Decimal.Overlong Nat :=
  if n.base = 10 then Decimal.read n.digits else .ok (Decimal.ofDigits n.base n.digits)

/-- Splits off an optional sign; true stands for a minus. -/
def splitSign : List Char → Bool × List Char
  | '-' :: rest => (true, rest)
  | '+' :: rest => (false, rest)
  | cs => (false, cs)

/-- The value of an integer literal; nothing when the text is none. -/
def parseInteger (text : String) : Except Decimal.Overlong (Option Int) :=
  let (negative, body) := splitSign (withoutFinalBreak text.toList)
  match numeral? body with
  | none => .ok none
  | some n => n.value.map fun v => some (if negative then -(v : Int) else v)

/-- The text starts like a number: with a digit, or a sign and a digit. -/
def startsNumeric (text : String) : Bool :=
  match (splitSign text.toList).2 with
  | [] => false
  | c :: _ => c.isDigit

end AsmHighlight.Literal
