-- SUMMARY: Decimal numbers as people write them in a setting.
import AsmHighlight.Decimal.Integer
import AsmHighlight.Text.Character

/-!
# Numbers in settings

A setting's number may have blanks around it, a sign, digits of any script, and
single underscores between digits. The four information separators are no
blanks here. Every script with decimal digits has them as ten consecutive code
points, so the table of digits holds the code point of each zero. The scripts
are those of Unicode 14.
-/

namespace AsmHighlight

/-- The zeros of all scripts, in increasing order. -/
def Text.zeroDigits : List Nat :=
  [0x30, 0x660, 0x6F0, 0x7C0, 0x966, 0x9E6, 0xA66, 0xAE6, 0xB66, 0xBE6, 0xC66, 0xCE6, 0xD66,
   0xDE6, 0xE50, 0xED0, 0xF20, 0x1040, 0x1090, 0x17E0, 0x1810, 0x1946, 0x19D0, 0x1A80, 0x1A90,
   0x1B50, 0x1BB0, 0x1C40, 0x1C50, 0xA620, 0xA8D0, 0xA900, 0xA9D0, 0xA9F0, 0xAA50, 0xABF0, 0xFF10,
   0x104A0, 0x10D30, 0x11066, 0x110F0, 0x11136, 0x111D0, 0x112F0, 0x11450, 0x114D0, 0x11650,
   0x116C0, 0x11730, 0x118E0, 0x11950, 0x11C50, 0x11D50, 0x11DA0, 0x16A60, 0x16AC0, 0x16B50,
   0x1D7CE, 0x1D7D8, 0x1D7E2, 0x1D7EC, 0x1D7F6, 0x1E140, 0x1E2F0, 0x1E950, 0x1FBF0]

/-- The value of a decimal digit of any script. -/
def Text.decimalDigit? (c : Char) : Option Nat :=
  zeroDigits.findSome? fun base =>
    if base ≤ c.toNat ∧ c.toNat ≤ base + 9 then some (c.toNat - base) else none

namespace Decimal

/-- A blank that may stand around a number. -/
def isNumberBlank (c : Char) : Bool :=
  Text.isBlank c && !(0x1C ≤ c.toNat && c.toNat ≤ 0x1F)

/-- The digits of a text in which single underscores stand between digits. -/
def groupedDigits? : List Char → Option (List Nat)
  | [] => none
  | [c] => (Text.decimalDigit? c).map ([·])
  | c :: '_' :: rest =>
    match Text.decimalDigit? c, groupedDigits? rest with
    | some d, some ds => some (d :: ds)
    | _, _ => none
  | c :: rest =>
    match Text.decimalDigit? c, groupedDigits? rest with
    | some d, some ds => some (d :: ds)
    | _, _ => none

/-- The number that a text stands for, within the bound on digits. -/
def parse? (s : String) : Option Int :=
  let trimmed := Text.trimChars isNumberBlank s.toList
  let (negative, body) :=
    match trimmed with
    | '-' :: rest => (true, rest)
    | '+' :: rest => (false, rest)
    | cs => (false, cs)
  match (groupedDigits? body).map read with
  | some (.ok n) => some (if negative then -(n : Int) else n)
  | _ => none

end Decimal

end AsmHighlight
