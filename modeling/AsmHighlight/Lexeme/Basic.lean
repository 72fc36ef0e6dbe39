-- SUMMARY: Lexemes: the words, strings, comments and separators of a document.
import AsmHighlight.Source.Position

/-!
# Lexemes

A lexeme is a piece of a document with its place: a word, a string, a comment,
a separator, or a string that was not closed on its line. A lexeme never spans
a line break.
-/

namespace AsmHighlight

/-- The shape of a lexeme. -/
inductive Lexeme.Kind where
  | word
  | string
  | comment
  | punctuation
  | invalid
  deriving DecidableEq, Repr

def Lexeme.Kind.name : Lexeme.Kind → String
  | .word => "WORD"
  | .string => "STRING"
  | .comment => "COMMENT"
  | .punctuation => "PUNCTUATION"
  | .invalid => "INVALID"

/-- A piece of a document. `error` says what is wrong with an invalid one. -/
structure Lexeme where
  kind : Lexeme.Kind
  text : String
  range : Range
  error : Option String := none
  deriving DecidableEq, Repr

namespace Lexeme

def line (l : Lexeme) : Int :=
  l.range.line

def display (l : Lexeme) : String :=
  s!"Lexeme({l.kind.name}, {Text.quoted l.text}, {l.range.start.text})"

end Lexeme

end AsmHighlight
