-- SUMMARY: Splitting a document into lexemes.
import AsmHighlight.Lexeme.Basic
import AsmHighlight.Text.Character

/-!
# Scanning

`scan` splits a document into lexemes and drops the blanks between them. At a
character that is not blank it takes, in this order of preference:

* a comment, from the comment sigil to the end of the line;
* a string, from a double quote to the next one that no backslash escapes, or
  an invalid lexeme to the end of the line when there is none;
* a comma;
* a word, which ends at a blank, a quote, the sigil or a comma.

A backslash escapes the character after it unless that ends the line. The text
of a lexeme followed by what remains is the text that was ahead
(`pieceAt_chars_append_rest`), so nothing is lost.
-/

namespace AsmHighlight.Lexeme

def quote : Char := '"'

def separator : Char := ','

/-- The character is the comment sigil; without a sigil there are no comments. -/
def isSigil (sigil : Option Char) (c : Char) : Bool :=
  sigil == some c

/-- The character can be part of a word. -/
def isOrdinary (sigil : Option Char) (c : Char) : Bool :=
  !(Text.isBlank c || c == quote || isSigil sigil c || c == separator)

/-- A string after its opening quote: the characters that belong to it, whether it
    was closed, and the characters after it. -/
structure StringBody where
  chars : List Char
  closed : Bool
  rest : List Char

/-- The string with one more character in front. -/
def StringBody.push (c : Char) (body : StringBody) : StringBody :=
  ⟨c :: body.chars, body.closed, body.rest⟩

/-- Reads a string after its opening quote. -/
def stringBody : List Char → StringBody
  | [] => ⟨[], false, []⟩
  | ['\\'] => ⟨['\\'], false, []⟩
  | '\\' :: c :: rest =>
    if Text.isLineBreak c then ⟨['\\'], false, c :: rest⟩
    else ((stringBody rest).push c).push '\\'
  | c :: rest =>
    if c = quote then ⟨[c], true, rest⟩
    else if Text.isLineBreak c then ⟨[], false, c :: rest⟩
    else (stringBody rest).push c

def unterminated : String := "unterminated string literal"

/-- A lexeme without its place: the shape, the characters, what is wrong, and the
    characters after it. -/
structure Piece where
  kind : Kind
  chars : List Char
  error : Option String
  rest : List Char

/-- The string or unclosed string whose opening quote stands before `body`. -/
def stringPiece (body : StringBody) : Piece where
  kind := if body.closed then .string else .invalid
  chars := quote :: body.chars
  error := if body.closed then none else some unterminated
  rest := body.rest

/-- The character belongs to the same line. -/
def inLine (c : Char) : Bool :=
  !Text.isLineBreak c

/-- The lexeme that starts with `c`, which is not blank, when `rest` follows. -/
def pieceAt (sigil : Option Char) (c : Char) (rest : List Char) : Piece :=
  if isSigil sigil c then
    ⟨.comment, c :: rest.takeWhile inLine, none, rest.dropWhile inLine⟩
  else if c = quote then stringPiece (stringBody rest)
  else if c = separator then ⟨.punctuation, [c], none, rest⟩
  else
    ⟨.word, c :: rest.takeWhile (isOrdinary sigil), none, rest.dropWhile (isOrdinary sigil)⟩

-- ---------------------------------------------------------------------------
-- Nothing is lost
-- ---------------------------------------------------------------------------

/-- A string and what remains make up the text that was ahead. -/
theorem stringBody_chars_append_rest (cs : List Char) :
    (stringBody cs).chars ++ (stringBody cs).rest = cs := by
  fun_induction stringBody cs <;> simp_all [StringBody.push]

/-- A lexeme and what remains make up the text that was ahead. -/
theorem pieceAt_chars_append_rest (sigil : Option Char) (c : Char) (rest : List Char) :
    (pieceAt sigil c rest).chars ++ (pieceAt sigil c rest).rest = c :: rest := by
  unfold pieceAt
  split
  · simp
  · split
    · simp_all [stringPiece, stringBody_chars_append_rest]
    · split <;> simp

/-- A lexeme starts with the character it was found at. -/
theorem pieceAt_chars_head (sigil : Option Char) (c : Char) (rest : List Char) :
    ∃ more, (pieceAt sigil c rest).chars = c :: more := by
  unfold pieceAt
  split
  · exact ⟨_, rfl⟩
  · split
    · simp_all [stringPiece]
    · split <;> exact ⟨_, rfl⟩

/-- What remains after a lexeme is no longer than what followed its first character. -/
theorem pieceAt_rest_length_le (sigil : Option Char) (c : Char) (rest : List Char) :
    (pieceAt sigil c rest).rest.length ≤ rest.length := by
  obtain ⟨more, h⟩ := pieceAt_chars_head sigil c rest
  have := congrArg List.length (pieceAt_chars_append_rest sigil c rest)
  rw [h] at this
  simp only [List.cons_append, List.length_cons, List.length_append] at this
  omega

-- ---------------------------------------------------------------------------
-- Documents
-- ---------------------------------------------------------------------------

/-- The lexeme of a piece that starts at `p`. -/
def ofPiece (p : Position) (piece : Piece) : Lexeme :=
  ⟨piece.kind, String.ofList piece.chars, .ofLength p piece.chars.length, piece.error⟩

/-- The lexemes of the characters ahead of position `p`. -/
def scanFrom (sigil : Option Char) (p : Position) (cs : List Char) : List Lexeme :=
  match cs with
  | [] => []
  | c :: rest =>
    if Text.isBlank c then scanFrom sigil (p.advance c rest) rest
    else
      let piece := pieceAt sigil c rest
      ofPiece p piece :: scanFrom sigil (p.shift piece.chars.length) piece.rest
termination_by cs.length
decreasing_by
  · simp
  · have := pieceAt_rest_length_le sigil c rest
    simp only [List.length_cons]
    omega

/-- The lexemes of a document, in order. -/
def scan (sigil : Option Char) (source : String) : List Lexeme :=
  scanFrom sigil .start source.toList

/-- The sigil that a text stands for: its only character. Any other text never
    starts a comment. -/
def sigilOf (text : String) : Option Char :=
  match text.toList with
  | [c] => some c
  | _ => none

end AsmHighlight.Lexeme
