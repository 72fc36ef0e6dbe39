-- SUMMARY: String literals: the value of a quoted text, and the quoted text of a value.
import AsmHighlight.Text.Character

/-!
# String literals

`decodeString` gives the value of a quoted literal. A backslash starts an
escape: a letter for a control character, `x` with up to two hexadecimal
digits, or any other character, which stands for itself. A backslash at the
very end stands for itself too. `encodeString` writes any value as a literal
that fits on one line.
-/

namespace AsmHighlight.Literal

/-- The character that an escape of one letter stands for. -/
def escape? (c : Char) : Option Char :=
  if c = 'n' then some '\n'
  else if c = 'r' then some '\r'
  else if c = 't' then some '\t'
  else if c = '0' then some (Char.ofNat 0)
  else if c = '\\' ∨ c = '"' ∨ c = Char.ofNat 0x27 then some c
  else none

/-- The characters that a literal's body stands for. -/
def unescape : List Char → List Char
  | [] => []
  | ['\\'] => ['\\']
  | ['\\', c] => [(escape? c).getD c]
  | ['\\', c, a] =>
    if c = 'x' then
      match Text.hexValue? a with
      | some v => [Char.ofNat v]
      | none => 'x' :: unescape [a]
    else (escape? c).getD c :: unescape [a]
  | '\\' :: c :: a :: b :: rest =>
    if c = 'x' then
      match Text.hexValue? a, Text.hexValue? b with
      | some v, some w => Char.ofNat (v * 16 + w) :: unescape rest
      | some v, none => Char.ofNat v :: unescape (b :: rest)
      | none, _ => 'x' :: unescape (a :: b :: rest)
    else (escape? c).getD c :: unescape (a :: b :: rest)
  | c :: rest => c :: unescape rest

/-- The characters between the quotes: all but the first, and without a closing
    quote when there is one. -/
def bodyOf (cs : List Char) : List Char :=
  if 2 ≤ cs.length ∧ cs.getLast? = some '"' then (cs.drop 1).dropLast else cs.drop 1

/-- The value of a string literal. -/
def decodeString (text : String) : String :=
  String.ofList (unescape (bodyOf text.toList))

/-- How a character of a value is written in a literal. -/
def escapeChar (c : Char) : List Char :=
  if c = '\\' then ['\\', '\\']
  else if c = '"' then ['\\', '"']
  else if c = '\n' then ['\\', 'n']
  else if c = '\r' then ['\\', 'r']
  else [c]

/-- The literal for a value. -/
def encodeString (value : String) : String :=
  String.ofList ('"' :: value.toList.flatMap escapeChar ++ ['"'])

end AsmHighlight.Literal
