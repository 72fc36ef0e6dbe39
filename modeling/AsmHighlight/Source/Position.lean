-- SUMMARY: Places and ranges in a document.
import AsmHighlight.Json.Basic

/-!
# Positions and ranges

A position counts lines and columns from one and characters from zero. A range
is half open: its start belongs to it and its end does not. Positions and
ranges that come from a document are never negative and run forwards; a caller
may make others, so the coordinates are integers.
-/

namespace AsmHighlight

/-- A place in a document. -/
structure Position where
  line : Int
  column : Int
  offset : Int
  deriving DecidableEq, Repr

namespace Position

def start : Position := ⟨1, 1, 0⟩

/-- The place `n` characters further on the same line. -/
def shift (p : Position) (n : Nat) : Position :=
  ⟨p.line, p.column + n, p.offset + n⟩

/-- The first column of the next line, one character further on. -/
def nextLine (p : Position) : Position :=
  ⟨p.line + 1, 1, p.offset + 1⟩

/-- The place after reading `c` when `rest` follows. A lone CR, a lone LF and the
    LF of a pair CR LF end a line; the CR of a pair takes a column. -/
def advance (p : Position) (c : Char) (rest : List Char) : Position :=
  if c = '\n' ∨ (c = '\r' ∧ rest.head? ≠ some '\n') then p.nextLine else p.shift 1

/-- A position as messages show it. -/
def text (p : Position) : String :=
  s!"{p.line}:{p.column}"

/-- The position comes before the other: by line, then column, then offset. -/
def before (p q : Position) : Bool :=
  p.line < q.line ||
    (p.line == q.line &&
      (p.column < q.column || (p.column == q.column && p.offset < q.offset)))

def toJson (p : Position) : Json :=
  .object [("line", .int p.line), ("column", .int p.column), ("offset", .int p.offset)]

end Position

/-- A half-open span of a document. -/
structure Range where
  start : Position
  stop : Position
  deriving DecidableEq, Repr

namespace Range

/-- The span of `n` characters on one line. -/
def ofLength (start : Position) (n : Nat) : Range :=
  ⟨start, start.shift n⟩

/-- The line a range starts on. -/
def line (r : Range) : Int :=
  r.start.line

def length (r : Range) : Int :=
  r.stop.offset - r.start.offset

/-- The two ranges share a character. -/
def overlaps (r s : Range) : Bool :=
  r.start.offset < s.stop.offset && s.start.offset < r.stop.offset

/-- The character at this offset belongs to the range. -/
def covers (r : Range) (offset : Int) : Bool :=
  r.start.offset ≤ offset && offset < r.stop.offset

/-- The range comes before the other: by start, then by end. -/
def before (r s : Range) : Bool :=
  r.start.before s.start || (r.start == s.start && r.stop.before s.stop)

/-- A range as messages show it. -/
def text (r : Range) : String :=
  s!"{r.start.text}-{r.stop.text}"

def toJson (r : Range) : Json :=
  .object [("start", r.start.toJson), ("end", r.stop.toJson)]

end Range

end AsmHighlight
