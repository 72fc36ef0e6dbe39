-- SUMMARY: Writing JSON text, compact or indented, in ASCII only.
import AsmHighlight.Json.Basic

/-!
# Writing JSON

Code points outside printable ASCII are written by their sixteen-bit units.
The compact form has a blank after each comma and colon; the indented form
puts each member and item on a line of its own, and empty arrays and objects
stay on one line.
-/

namespace AsmHighlight.Json

def escapeUnit (n : Nat) : List Char :=
  '\\' :: 'u' :: Text.hexDigits 4 n

/-- A code point inside a written string. -/
def escapeCode (n : Nat) : List Char :=
  if n = 0x22 then ['\\', '"']
  else if n = 0x5C then ['\\', '\\']
  else if n = 0x0A then ['\\', 'n']
  else if n = 0x0D then ['\\', 'r']
  else if n = 0x09 then ['\\', 't']
  else if n = 0x08 then ['\\', 'b']
  else if n = 0x0C then ['\\', 'f']
  else if 0x20 ≤ n ∧ n < 0x7F then [Char.ofNat n]
  else (Text.sixteenBitUnits n).flatMap escapeUnit

/-- A written string, with its quotes. -/
def writeString (s : Text.Loose) : String :=
  String.ofList ('"' :: s.codes.flatMap escapeCode ++ ['"'])

/-- A number that is not an integer. -/
def writeFloat : Decimal.Binary64 → String
  | .nan => "NaN"
  | .infinite false => "Infinity"
  | .infinite true => "-Infinity"
  | x => x.text

/-- The separators of a written array or object at a depth of nesting. -/
structure Spacing where
  opening : String
  between : String
  closing : String

/-- How the members of a container are set apart: on one line, or each on a line
    indented by `step` blanks per level. -/
def spacing (step : Option Nat) (depth : Nat) : Spacing :=
  match step with
  | none => ⟨"", ", ", ""⟩
  | some width =>
    let margin (levels : Nat) : String :=
      "\n" ++ String.ofList (List.replicate (width * levels) ' ')
    ⟨margin (depth + 1), "," ++ margin (depth + 1), margin depth⟩

/-- The written members between the brackets of a container. -/
def enclose (opening closing : String) (gap : Spacing) (parts : List String) : String :=
  match parts with
  | [] => opening ++ closing
  | _ => opening ++ gap.opening ++ String.intercalate gap.between parts ++ gap.closing ++ closing

mutual

/-- A value at a depth of nesting; `step` is the indentation per level. -/
def writeAt (step : Option Nat) (depth : Nat) : Json → String
  | .null => "null"
  | .bool true => "true"
  | .bool false => "false"
  | .int n => Decimal.text n
  | .float x => writeFloat x
  | .str s => writeString s
  | .arr items => enclose "[" "]" (spacing step depth) (writeItems step (depth + 1) items)
  | .obj fields =>
    enclose "\x7b" "\x7d" (spacing step depth) (writeFields step (depth + 1) fields)

def writeItems (step : Option Nat) (depth : Nat) : List Json → List String
  | [] => []
  | item :: rest => writeAt step depth item :: writeItems step depth rest

def writeFields (step : Option Nat) (depth : Nat) : List (Text.Loose × Json) → List String
  | [] => []
  | (key, value) :: rest =>
    (writeString key ++ ": " ++ writeAt step depth value) :: writeFields step depth rest

end

/-- The value on one line. -/
def compact (value : Json) : String :=
  writeAt none 0 value

mutual

/-- The value holds an integer that is too long for decimal text. -/
def hasOverlong : Json → Bool
  | .int n => Decimal.isOverlong n
  | .arr items => anyOverlong items
  | .obj fields => anyFieldOverlong fields
  | _ => false

/-- An item of an array is or holds an integer that is too long. -/
def anyOverlong : List Json → Bool
  | [] => false
  | item :: rest => hasOverlong item || anyOverlong rest

/-- A member of an object is or holds an integer that is too long. -/
def anyFieldOverlong : List (Text.Loose × Json) → Bool
  | [] => false
  | (_, value) :: rest => hasOverlong value || anyFieldOverlong rest

end

/-- The value indented by two blanks per level. -/
def indented (value : Json) : Except Decimal.Overlong String :=
  if value.hasOverlong then .error .writing else .ok (writeAt (some 2) 0 value)

end AsmHighlight.Json
