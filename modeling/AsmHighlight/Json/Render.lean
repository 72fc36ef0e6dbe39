-- SUMMARY: The texts of JSON values in messages and descriptions, and when there is none.
import AsmHighlight.Json.Basic

/-!
# Values in words

In a message a value has quoted strings, square brackets for arrays, braces for
objects, and the words `None`, `True` and `False` (`Json.render`). As part of a
description a string stands for itself (`Json.renderPlain`).

A value is rendered from left to right. Rendering ends without a text at the
first integer that is too long for decimal text, and at the first value that is
nested too deep, whatever it is.
-/

namespace AsmHighlight.Json

/-- Why a value has no text. -/
inductive Unrendered where
  | overlong (cause : Decimal.Overlong)
  | tooDeep
  deriving DecidableEq, Repr

def Unrendered.message : Unrendered → String
  | .overlong cause => cause.message
  | .tooDeep => "maximum recursion depth exceeded while getting the repr of an object"

mutual

/-- The text of a value in which at most `room` values are open at once. -/
def renderAt : (room : Nat) → Json → Except Unrendered String
  | 0, _ => .error .tooDeep
  | _ + 1, .null => .ok "None"
  | _ + 1, .bool true => .ok "True"
  | _ + 1, .bool false => .ok "False"
  | _ + 1, .int n => (Decimal.write n).mapError .overlong
  | _ + 1, .float x => .ok x.text
  | _ + 1, .str s => .ok s.quoted
  | room + 1, .arr items => do
    let parts ← renderItems room items
    return "[" ++ String.intercalate ", " parts ++ "]"
  | room + 1, .obj fields => do
    let parts ← renderFields room fields
    return "\x7b" ++ String.intercalate ", " parts ++ "\x7d"

def renderItems (room : Nat) : List Json → Except Unrendered (List String)
  | [] => .ok []
  | item :: rest => do
    let part ← renderAt room item
    let parts ← renderItems room rest
    return part :: parts

/-- The texts of the members of an object. A key is open like a value, but where a key is
    too deep the value behind it is too. -/
def renderFields (room : Nat) : List (Text.Loose × Json) → Except Unrendered (List String)
  | [] => .ok []
  | (key, value) :: rest => do
    let part ← renderAt room value
    let parts ← renderFields room rest
    return (key.quoted ++ ": " ++ part) :: parts

end

@[simp] theorem renderAt_zero (value : Json) : renderAt 0 value = .error .tooDeep := by
  cases value <;> rfl

/-- A value as messages show it. -/
def render (value : Json) : Except Unrendered String :=
  renderAt maxDepth value

/-- A value as part of a description: like `render`, with strings unquoted. -/
def renderPlain : Json → Except Unrendered String
  | .str s => .ok s.plain
  | value => render value

end AsmHighlight.Json
