-- SUMMARY: A reading place in a document, moved one character at a time.
import AsmHighlight.Source.Position
import AsmHighlight.Text.Character

/-!
# Cursors

A cursor is a position together with the characters behind it and those ahead
of it. It can look at any place of the document without moving.
-/

namespace AsmHighlight

/-- A reading place in a document. -/
structure Cursor where
  position : Position
  /-- The characters that were read, latest first. -/
  behind : List Char
  ahead : List Char

namespace Cursor

/-- A cursor at the start of a document. -/
def ofText (text : String) : Cursor :=
  ⟨.start, [], text.toList⟩

/-- Nothing is left to read. -/
def atEnd (c : Cursor) : Bool :=
  c.ahead.isEmpty

def next? (c : Cursor) : Option Char :=
  c.ahead.head?

/-- A place that is not in the document, wherever it is counted from. -/
structure OutOfDocument where
  deriving DecidableEq, Repr

/-- The character `n` places ahead, or none past the end. Places before the start of
    the document are counted from its end, as far as it reaches. -/
def peek (c : Cursor) (n : Int) : Except OutOfDocument (Option Char) :=
  let text := c.behind.reverse ++ c.ahead
  let size : Int := text.length
  let place := c.behind.length + n
  if place < -size then .error {}
  else if place < 0 then .ok text[(size + place).toNat]?
  else .ok text[place.toNat]?

/-- The next character can end a line. -/
def atLineBreak (c : Cursor) : Bool :=
  c.ahead.head?.any Text.isLineBreak

/-- The cursor behind the next character; at the end it stays. -/
def advance (c : Cursor) : Cursor :=
  match c.ahead with
  | [] => c
  | next :: rest => ⟨c.position.advance next rest, next :: c.behind, rest⟩

/-- The cursor after moving `n` times. -/
def advanceBy (c : Cursor) : Nat → Cursor
  | 0 => c
  | n + 1 => c.advance.advanceBy n

-- ---------------------------------------------------------------------------
-- Laws
-- ---------------------------------------------------------------------------

/-- Looking no places ahead shows the next character. -/
theorem peek_zero (c : Cursor) : c.peek 0 = .ok c.next? := by
  have text : (c.behind.reverse ++ c.ahead)[c.behind.length]? = c.next? := by
    simp [next?, List.getElem?_append_right, List.head?_eq_getElem?]
  unfold peek
  simp only [Int.add_zero]
  rw [if_neg (by omega), if_neg (by omega), Int.toNat_natCast, text]

/-- Moving keeps the document. -/
theorem text_advance (c : Cursor) :
    c.advance.behind.reverse ++ c.advance.ahead = c.behind.reverse ++ c.ahead := by
  unfold advance
  split <;> simp_all

end Cursor

end AsmHighlight
