-- SUMMARY: The shape of names: labels, identifiers, mnemonics and registers.

/-!
# Names

A name is an ASCII letter or underscore followed by letters, digits and
underscores. One LF at the very end is tolerated; words of a document hold no
line breaks, so it can only come from a caller or a grammar file.
-/

namespace AsmHighlight.Literal

/-- The characters without one LF at the end. -/
def withoutFinalBreak (cs : List Char) : List Char :=
  if cs.getLast? = some '\n' then cs.dropLast else cs

def isNameStart (c : Char) : Bool :=
  c.isAlpha || c == '_'

def isNamePart (c : Char) : Bool :=
  c.isAlpha || c.isDigit || c == '_'

def isNameChars : List Char → Bool
  | [] => false
  | c :: rest => isNameStart c && rest.all isNamePart

def isIdentifier (s : String) : Bool :=
  isNameChars (withoutFinalBreak s.toList)

/-- The text is a name in lower case, as grammar tables hold it. -/
def isTableName (s : String) : Bool :=
  isIdentifier s && !s.toList.any Char.isUpper

/-- The name that a label declaration declares: the text without its first
    character and without one colon at the end. -/
def labelName (text : String) : String :=
  let name := text.toList.drop 1
  String.ofList (if name.getLast? = some ':' then name.dropLast else name)

end AsmHighlight.Literal
