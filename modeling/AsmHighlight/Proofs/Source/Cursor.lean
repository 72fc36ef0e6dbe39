-- SUMMARY: The scanner reads a document like a cursor that moves over it.
import AsmHighlight.Proofs.Source.Reading
import AsmHighlight.Source.Cursor

/-!
# Scanning with a cursor

The scanner works on a position and the characters ahead of it. It moves over a blank
by one character, and over a lexeme by all of its characters at once. A cursor that moves
one character at a time gets to the same places (`Lexeme.scanFrom_cursor`), so every lexeme
stands where a cursor comes to after as many moves as the lexeme's offset says
(`Lexeme.exists_cursor_of_mem_scan`).
-/

namespace AsmHighlight

/-- A cursor that moves over some characters reads them one after the other. -/
theorem Cursor.advanceBy_length {c : Cursor} {read rest : List Char}
    (h : c.ahead = read ++ rest) :
    c.advanceBy read.length = ⟨c.position.after read rest, read.reverse ++ c.behind, rest⟩ := by
  induction read generalizing c with
  | nil =>
    obtain ⟨position, behind, ahead⟩ := c
    cases h
    rfl
  | cons d read ih =>
    have hadvance : c.advance =
        ⟨c.position.advance d (read ++ rest), d :: c.behind, read ++ rest⟩ := by
      rw [advance, h]
      rfl
    rw [List.length_cons, advanceBy, hadvance, ih rfl, Position.after, List.reverse_cons,
      List.append_assoc]
    rfl

namespace Lexeme

/-- The scanner is a loop on a cursor. -/
theorem scanFrom_cursor (sigil : Option Char) (c : Cursor) :
    scanFrom sigil c.position c.ahead =
      match c.next? with
      | none => []
      | some d =>
        if Text.isBlank d then scanFrom sigil c.advance.position c.advance.ahead
        else
          let piece := pieceAt sigil d c.advance.ahead
          let moved := c.advanceBy piece.chars.length
          ofPiece c.position piece :: scanFrom sigil moved.position moved.ahead := by
  obtain ⟨position, behind, ahead⟩ := c
  cases ahead with
  | nil => exact scanFrom_nil sigil position
  | cons d rest =>
    simp only [Cursor.next?, Cursor.advance, List.head?_cons]
    split
    next hd => exact scanFrom_blank hd
    next hd =>
      have hd' : Text.isBlank d = false := by simpa using hd
      have hmoved := Cursor.advanceBy_length (c := ⟨position, behind, d :: rest⟩)
        (pieceAt_chars_append_rest sigil d rest).symm
      rw [hmoved, Position.after_of_inLine (pieceAt_inLine sigil hd' rest)]
      conv => lhs; unfold scanFrom
      exact if_neg hd

/-- A lexeme starts where a cursor comes to after as many moves as its offset says. It is what
    the cursor has ahead there, and ends where the cursor comes to behind it. -/
theorem exists_cursor_of_mem_scan {sigil : Option Char} {source : String} {l : Lexeme}
    (hl : l ∈ scan sigil source) :
    ∃ c, (Cursor.ofText source).advanceBy l.range.start.offset.toNat = c ∧
      c.position = l.range.start ∧ c.ahead.take l.text.length = l.text.toList ∧
      (c.advanceBy l.text.length).position = l.range.stop := by
  have htiling := scan_tiling sigil source
  have hspan : l.span ∈ (scan sigil source).map span := List.mem_map_of_mem hl
  have hrange : l.range = .ofLength l.range.start l.text.length := htiling.range_eq l.span hspan
  have hline : ∀ c ∈ l.text.toList, Text.isLineBreak c = false := htiling.inLine l.span hspan
  obtain ⟨before, behind, htext, hstart⟩ := htiling.reached l.span hspan
  simp only [span] at htext hstart
  have hoffset : l.range.start.offset.toNat = before.length := by
    rw [hstart, Position.offset_after]
    simp [Position.start]
  refine ⟨⟨l.range.start, before.reverse, l.text.toList ++ behind⟩, ?_, rfl, ?_, ?_⟩
  · rw [hoffset, Cursor.advanceBy_length htext, hstart, Cursor.ofText, List.append_nil]
  · rw [← String.length_toList]
    exact List.take_left
  · rw [← String.length_toList, Cursor.advanceBy_length rfl]
    simp only
    rw [Position.after_of_inLine hline, String.length_toList, hrange]
    rfl

end Lexeme

end AsmHighlight
