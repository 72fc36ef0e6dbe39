-- SUMMARY: Texts shown between quotes, with escapes for what cannot be shown.
import AsmHighlight.Text.Character
import AsmHighlight.Text.Printable

/-!
# Quoted display of a text

Messages show a text between single quotes. Double quotes are used when the
text holds a single quote and no double quote, so the quote character needs an
escape only when both kinds occur. A backslash, the quote, tabs and line
breaks have short escapes; any other character that is not printable is shown
by its code in two, four or eight hexadecimal digits.
-/

namespace AsmHighlight.Text

/-- How a character that is not printable is shown. -/
def escapeByCode (n : Nat) : List Char :=
  if n < 0x100 then '\\' :: 'x' :: hexDigits 2 n
  else if n < 0x10000 then '\\' :: 'u' :: hexDigits 4 n
  else '\\' :: 'U' :: hexDigits 8 n

/-- How one character is shown inside `quote`. -/
def showChar (quote c : Char) : List Char :=
  if c = quote ∨ c = '\\' then ['\\', c]
  else if c = '\n' then ['\\', 'n']
  else if c = '\r' then ['\\', 'r']
  else if c = '\t' then ['\\', 't']
  else if isPrintable c then [c]
  else escapeByCode c.toNat

def singleQuote : Char := Char.ofNat 0x27

/-- The quote used around a text. -/
def quoteFor (cs : List Char) : Char :=
  if singleQuote ∈ cs ∧ '"' ∉ cs then '"' else singleQuote

def quoted (s : String) : String :=
  let quote := quoteFor s.toList
  String.ofList (quote :: s.toList.flatMap (showChar quote) ++ [quote])

end AsmHighlight.Text
