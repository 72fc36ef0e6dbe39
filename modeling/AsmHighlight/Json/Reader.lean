-- SUMMARY: Reading JSON text, with the reason and the place of the first fault.
import AsmHighlight.Json.Basic

/-!
# Reading JSON

The reader takes one value with blanks around it. A fault carries the reason
and the number of characters before the place it is reported at. The words
`NaN`, `Infinity` and `-Infinity` are accepted as numbers, a key that is given
twice keeps its first place and takes its last value, and an escape may name a
surrogate without its partner. An integer that is too long for decimal
conversion, and containers nested too deep, stop the reading with faults of
their own.
-/

namespace AsmHighlight.Json

/-- Why a text is not JSON. -/
inductive Malformed where
  | value
  | name
  | colon
  | comma
  | unterminated
  | control
  | escape
  | codeEscape
  | extra
  | byteOrderMark
  deriving DecidableEq, Repr

def Malformed.text : Malformed → String
  | .value => "Expecting value"
  | .name => "Expecting property name enclosed in double quotes"
  | .colon => "Expecting ':' delimiter"
  | .comma => "Expecting ',' delimiter"
  | .unterminated => "Unterminated string starting at"
  | .control => "Invalid control character at"
  | .escape => "Invalid \\escape"
  | .codeEscape => "Invalid \\uXXXX escape"
  | .extra => "Extra data"
  | .byteOrderMark => "Unexpected UTF-8 BOM (decode using utf-8-sig)"

/-- The kinds of values that hold others. -/
inductive Container where
  | array
  | object
  deriving DecidableEq, Repr

def Container.noun : Container → String
  | .array => "array"
  | .object => "object"

/-- How reading can fail. -/
inductive ReadFault where
  /-- The text is not JSON, as seen after `offset` characters. -/
  | malformed (reason : Malformed) (offset : Nat)
  /-- An integer is too long. -/
  | overlong (cause : Decimal.Overlong)
  /-- A container opens inside as many others as may be open at once. -/
  | tooDeep (container : Container)
  deriving DecidableEq, Repr

/-- The part of the text that is still to be read, and how much is behind. -/
structure Remaining where
  offset : Nat
  chars : List Char

/-- A character that may stand between the parts of a JSON text. -/
def isSpace (c : Char) : Bool :=
  c == ' ' || c == '\t' || c == '\n' || c == '\r'

/-- What remains behind the blanks at the start of `chars`. -/
def skipSpaceFrom (offset : Nat) (chars : List Char) : Remaining :=
  match chars with
  | [] => ⟨offset, []⟩
  | c :: rest => if isSpace c then skipSpaceFrom (offset + 1) rest else ⟨offset, c :: rest⟩

def Remaining.skipSpace (r : Remaining) : Remaining :=
  skipSpaceFrom r.offset r.chars

/-- A fault at the place where reading stands. -/
def Remaining.fault (r : Remaining) (reason : Malformed) : ReadFault :=
  .malformed reason r.offset

-- ---------------------------------------------------------------------------
-- Strings
-- ---------------------------------------------------------------------------

def hex4? (a b c d : Char) : Option Nat := do
  let a ← Text.hexValue? a
  let b ← Text.hexValue? b
  let c ← Text.hexValue? c
  let d ← Text.hexValue? d
  return ((a * 16 + b) * 16 + c) * 16 + d

/-- The character that an escape of one letter stands for. -/
def shortEscape? (c : Char) : Option Char :=
  if c = '"' ∨ c = '\\' ∨ c = '/' then some c
  else if c = 'b' then some (Char.ofNat 8)
  else if c = 'f' then some (Char.ofNat 12)
  else if c = 'n' then some '\n'
  else if c = 'r' then some '\r'
  else if c = 't' then some '\t'
  else none

/-- Reads the rest of a string whose quote stood at `start`; `done` holds the
    code points read so far, latest first. -/
def readString (start : Nat) (done : List Nat) (offset : Nat) :
    List Char → Except ReadFault (Text.Loose × Remaining)
  | [] => .error (.malformed .unterminated start)
  | '"' :: rest => .ok (.ofCodes done.reverse, ⟨offset + 1, rest⟩)
  | ['\\'] => .error (.malformed .unterminated start)
  | '\\' :: 'u' :: a :: b :: c :: d :: '\\' :: 'u' :: e :: f :: g :: h :: next :: rest =>
    match hex4? a b c d with
    | none => .error (.malformed .codeEscape (offset + 1))
    | some high =>
      if Text.isHighSurrogate high then
        match hex4? e f g h with
        | none => .error (.malformed .codeEscape (offset + 7))
        | some low =>
          if Text.isLowSurrogate low then
            readString start (Text.joinSurrogates high low :: done) (offset + 12)
              (next :: rest)
          else
            readString start (high :: done) (offset + 6)
              ('\\' :: 'u' :: e :: f :: g :: h :: next :: rest)
      else
        readString start (high :: done) (offset + 6)
          ('\\' :: 'u' :: e :: f :: g :: h :: next :: rest)
  | '\\' :: 'u' :: a :: b :: c :: d :: next :: rest =>
    match hex4? a b c d with
    | none => .error (.malformed .codeEscape (offset + 1))
    | some unit => readString start (unit :: done) (offset + 6) (next :: rest)
  | '\\' :: c :: rest =>
    match shortEscape? c with
    | some value => readString start (value.toNat :: done) (offset + 2) rest
    | none =>
      .error (.malformed (if c = 'u' then .codeEscape else .escape)
        (if c = 'u' then offset + 1 else offset))
  | c :: rest =>
    if c.toNat < 0x20 then .error (.malformed .control offset)
    else readString start (c.toNat :: done) (offset + 1) rest

-- ---------------------------------------------------------------------------
-- Numbers
-- ---------------------------------------------------------------------------

def digitValue (c : Char) : Nat :=
  c.toNat - 0x30

/-- Splits off the leading decimal digits. -/
def takeDigits (cs : List Char) : List Char × List Char :=
  (cs.takeWhile Char.isDigit, cs.dropWhile Char.isDigit)

/-- The digits of the whole part: a single zero, or digits that start with none. -/
def takeWhole : List Char → Option (List Char × List Char)
  | '0' :: rest => some (['0'], rest)
  | c :: rest => if c.isDigit then some (takeDigits (c :: rest)) else none
  | [] => none

/-- The digits after a decimal point, which needs at least one. -/
def takeFraction : List Char → List Char × List Char
  | '.' :: c :: rest => if c.isDigit then takeDigits (c :: rest) else ([], '.' :: c :: rest)
  | cs => ([], cs)

/-- The sign at the start, negative or not, and how many characters it takes; `plus`
    tells whether a plus sign counts as one. -/
def takeSign (plus : Bool) : List Char → Bool × Nat × List Char
  | '-' :: rest => (true, 1, rest)
  | '+' :: rest => if plus then (false, 1, rest) else (false, 0, '+' :: rest)
  | cs => (false, 0, cs)

/-- The exponent, when its mark is followed by a sign or none and a digit, and how many
    characters it takes. -/
def takeExponent : List Char → Option (Int × Nat × List Char)
  | [] => none
  | mark :: rest =>
    if mark = 'e' ∨ mark = 'E' then
      let (negative, signWidth, rest) := takeSign true rest
      match takeDigits rest with
      | ([], _) => none
      | (digits, after) =>
        let size : Int := Decimal.ofDigits 10 (digits.map digitValue)
        some (if negative then -size else size, 1 + signWidth + digits.length, after)
    else none

/-- Reads a number; anything else is reported as a missing value. -/
def readNumber (r : Remaining) : Except ReadFault (Json × Remaining) :=
  let (negative, signWidth, body) := takeSign false r.chars
  match takeWhole body with
  | none => .error (r.fault .value)
  | some (whole, afterWhole) =>
    let (fraction, afterFraction) := takeFraction afterWhole
    let afterPoint := r.offset + signWidth + whole.length +
      (if fraction.isEmpty then 0 else 1 + fraction.length)
    match fraction, takeExponent afterFraction with
    | [], none =>
      match Decimal.read (whole.map digitValue) with
      | .error cause => .error (.overlong cause)
      | .ok n => .ok (.int (if negative then -(n : Int) else n), ⟨afterPoint, afterFraction⟩)
    | _, exponent =>
      let (power, width, rest) := exponent.getD (0, 0, afterFraction)
      let digits := Decimal.ofDigits 10 ((whole ++ fraction).map digitValue)
      .ok (.float (.ofDecimal negative digits (power - (fraction.length : Int))),
        ⟨afterPoint + width, rest⟩)

-- ---------------------------------------------------------------------------
-- Values
-- ---------------------------------------------------------------------------

/-- The words that stand for a value. -/
def words : List (List Char × Json) :=
  [("null".toList, .null), ("true".toList, .bool true), ("false".toList, .bool false),
   ("NaN".toList, .float .nan), ("Infinity".toList, .float (.infinite false)),
   ("-Infinity".toList, .float (.infinite true))]

/-- Reads a word that stands for a value, or else a number. -/
def readScalar (r : Remaining) : Except ReadFault (Json × Remaining) :=
  match words.find? fun (word, _) => word.isPrefixOf r.chars with
  | some (word, value) => .ok (value, ⟨r.offset + word.length, r.chars.drop word.length⟩)
  | none => readNumber r

/-- Reads the items of an array up to its closing bracket; `item` reads one, and
    `done` holds those read so far, latest first. An item and the comma after it take
    two characters, so the length of the text is enough `fuel`. -/
def readItems (item : Remaining → Except ReadFault (Json × Remaining)) :
    (fuel : Nat) → List Json → Remaining → Except ReadFault (List Json × Remaining)
  | 0, _, r => .error (r.fault .value)
  | fuel + 1, done, r => do
    let (value, after) ← item r
    let after := after.skipSpace
    match after.chars with
    | ']' :: rest => return ((value :: done).reverse, ⟨after.offset + 1, rest⟩)
    | ',' :: rest =>
      readItems item fuel (value :: done) (Remaining.skipSpace ⟨after.offset + 1, rest⟩)
    | _ => .error (after.fault .comma)

/-- Reads the members of an object up to its closing brace and adds them to those
    that are `known`; `item` reads the value of one. The length of the text is enough
    `fuel`. -/
def readFields (item : Remaining → Except ReadFault (Json × Remaining)) :
    (fuel : Nat) → List (Text.Loose × Json) → Remaining →
    Except ReadFault (List (Text.Loose × Json) × Remaining)
  | 0, _, r => .error (r.fault .value)
  | fuel + 1, known, r =>
    match r.chars with
    | '"' :: rest => do
      let (key, after) ← readString r.offset [] (r.offset + 1) rest
      let after := after.skipSpace
      match after.chars with
      | ':' :: rest =>
        let (value, after) ← item (Remaining.skipSpace ⟨after.offset + 1, rest⟩)
        let after := after.skipSpace
        let known := Keyed.put known key value
        match after.chars with
        | '\x7d' :: rest => return (known, ⟨after.offset + 1, rest⟩)
        | ',' :: rest =>
          readFields item fuel known (Remaining.skipSpace ⟨after.offset + 1, rest⟩)
        | _ => .error (after.fault .comma)
      | _ => .error (after.fault .colon)
    | _ => .error (r.fault .name)

/-- Reads what stands between the brackets of an array. -/
def readArray (fuel : Nat) (item : Remaining → Except ReadFault (Json × Remaining))
    (r : Remaining) : Except ReadFault (Json × Remaining) :=
  let inner := r.skipSpace
  match inner.chars with
  | ']' :: rest => .ok (.arr [], ⟨inner.offset + 1, rest⟩)
  | _ => do
    let (items, after) ← readItems item fuel [] inner
    return (.arr items, after)

/-- Reads what stands between the braces of an object. -/
def readObject (fuel : Nat) (item : Remaining → Except ReadFault (Json × Remaining))
    (r : Remaining) : Except ReadFault (Json × Remaining) :=
  let inner := r.skipSpace
  match inner.chars with
  | '\x7d' :: rest => .ok (.obj [], ⟨inner.offset + 1, rest⟩)
  | _ => do
    let (fields, after) ← readFields item fuel [] inner
    return (.obj fields, after)

/-- Reads a value in which at most `room` containers are open at once; each of them
    may have `fuel` items. -/
def readValue (fuel room : Nat) (r : Remaining) : Except ReadFault (Json × Remaining) :=
  match r.chars with
  | '"' :: rest => do
    let (s, after) ← readString r.offset [] (r.offset + 1) rest
    return (.str s, after)
  | '[' :: rest =>
    match room with
    | 0 => .error (.tooDeep .array)
    | room + 1 => readArray fuel (readValue fuel room) ⟨r.offset + 1, rest⟩
  | '\x7b' :: rest =>
    match room with
    | 0 => .error (.tooDeep .object)
    | room + 1 => readObject fuel (readValue fuel room) ⟨r.offset + 1, rest⟩
  | _ => readScalar r

/-- Reads a whole text as one value. -/
def read (text : String) : Except ReadFault Json :=
  let chars := text.toList
  match chars with
  | '\uFEFF' :: _ => .error (.malformed .byteOrderMark 0)
  | _ => do
    let (value, after) ← readValue chars.length maxDepth (Remaining.skipSpace ⟨0, chars⟩)
    let after := after.skipSpace
    if after.chars.isEmpty then return value else .error (after.fault .extra)

/-- The line and column, both counted from one, of the place after `offset`
    characters of a text in which only LF ends a line. -/
def lineAndColumn (text : String) (offset : Nat) : Nat × Nat :=
  let before := text.toList.take offset
  let lineStart := (before.reverse.takeWhile (· != '\n')).length
  (before.count '\n' + 1, lineStart + 1)

end AsmHighlight.Json
