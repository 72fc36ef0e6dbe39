-- SUMMARY: Texts of lines that are joined by LF, by CR LF or by CR.
import AsmHighlight.Proofs.Source.Reading

/-!
# Line ends

Lines that hold no line break can be joined by any of the three line ends. The
text has the same lines (`lines_join_eq`), and reading it comes to the start of
the next line behind each line end (`after_chars`). The one case that asks for
care is CR, which ends a line only if no LF follows; in a text of lines joined by
CR there is no LF (`head?_intercalate_cr`).
-/

namespace AsmHighlight

/-- What can stand between two lines. -/
inductive LineEnd where
  | lf
  | crlf
  | cr
  deriving DecidableEq, Repr

namespace LineEnd

def chars : LineEnd → List Char
  | .lf => ['\n']
  | .crlf => ['\r', '\n']
  | .cr => ['\r']

/-- The lines with the line end between each two. -/
def join (e : LineEnd) (lines : List String) : String :=
  String.intercalate (String.ofList e.chars) lines

theorem toList_join (e : LineEnd) (lines : List String) :
    (e.join lines).toList = e.chars.intercalate (lines.map String.toList) := by
  rw [join, String.toList_intercalate, String.toList_ofList]

theorem isLineBreak_of_mem (e : LineEnd) : ∀ c ∈ e.chars, Text.isLineBreak c = true := by
  cases e with
  | lf | crlf | cr => simp [chars, Text.isLineBreak]

/-- In lines that are joined by CR, no LF comes after a CR. -/
theorem head?_intercalate_cr {lines : List (List Char)}
    (h : ∀ line ∈ lines, ∀ c ∈ line, Text.isLineBreak c = false) :
    (LineEnd.cr.chars.intercalate lines).head? ≠ some '\n' := by
  have hfirst {line rest : List Char} (hline : ∀ c ∈ line, Text.isLineBreak c = false)
      (hrest : rest.head? ≠ some '\n') : (line ++ rest).head? ≠ some '\n' := by
    cases line with
    | nil => exact hrest
    | cons c line =>
      rintro ⟨⟩
      exact absurd (hline '\n' (List.mem_cons_self ..)) (by decide)
  cases lines with
  | nil => exact nofun
  | cons line more =>
    have hline := h line (List.mem_cons_self ..)
    cases more with
    | nil =>
      rw [List.intercalate_singleton, ← List.append_nil line]
      exact hfirst hline nofun
    | cons next more =>
      rw [List.intercalate_cons_cons, List.append_assoc]
      exact hfirst hline (by simp [chars])

/-- The line end is not the first half of a pair with what follows it. -/
def EndsBefore (e : LineEnd) (rest : List Char) : Prop :=
  e = .cr → rest.head? ≠ some '\n'

theorem endsBefore_intercalate (e : LineEnd) {lines : List (List Char)}
    (h : ∀ line ∈ lines, ∀ c ∈ line, Text.isLineBreak c = false) :
    e.EndsBefore (e.chars.intercalate lines) := by
  rintro rfl
  exact head?_intercalate_cr h

/-- Reading over a line end leads to the start of the next line. -/
theorem after_chars {e : LineEnd} {rest : List Char} (h : e.EndsBefore rest) (p : Position) :
    (p.after e.chars rest).line = p.line + 1 ∧ (p.after e.chars rest).column = 1 := by
  cases e with
  | lf => exact ⟨rfl, rfl⟩
  | crlf => exact ⟨rfl, rfl⟩
  | cr => simp [chars, Position.after, Position.advance, h rfl, Position.nextLine]

theorem splitLines_chars {e : LineEnd} {rest : List Char} (h : e.EndsBefore rest) :
    Text.splitLines (e.chars ++ rest) = [] :: Text.splitLines rest := by
  cases e with
  | lf => exact Text.splitLines_lf rest
  | crlf => exact Text.splitLines_pair rest
  | cr => exact Text.splitLines_cr (h rfl)

/-- A text of lines is split into these lines again. -/
theorem splitLines_intercalate (e : LineEnd) {lines : List (List Char)} (hne : lines ≠ [])
    (h : ∀ line ∈ lines, ∀ c ∈ line, Text.isLineBreak c = false) :
    Text.splitLines (e.chars.intercalate lines) = lines := by
  induction lines with
  | nil => exact absurd rfl hne
  | cons line more ih =>
    have hline := h line (List.mem_cons_self ..)
    have hmore : ∀ line ∈ more, ∀ c ∈ line, Text.isLineBreak c = false :=
      fun next hnext => h next (List.mem_cons_of_mem line hnext)
    cases more with
    | nil =>
      have hsplit := Text.splitLines_append_of_inLine hline []
      rw [List.append_nil] at hsplit
      rw [List.intercalate_singleton, hsplit]
      simp [Text.splitLines]
    | cons next more =>
      rw [List.intercalate_cons_cons, List.append_assoc, Text.splitLines_append_of_inLine hline,
        splitLines_chars (e.endsBefore_intercalate hmore), ih (List.cons_ne_nil next more) hmore]
      simp

/-- The lines of a text do not depend on the line end. -/
theorem lines_join_eq (e e' : LineEnd) {lines : List String}
    (h : ∀ line ∈ lines, ∀ c ∈ line.toList, Text.isLineBreak c = false) :
    Text.lines (e.join lines) = Text.lines (e'.join lines) := by
  rw [Text.lines, Text.lines, toList_join, toList_join]
  cases lines with
  | nil => rfl
  | cons line more =>
    have hchars : ∀ cs ∈ (line :: more).map String.toList, ∀ c ∈ cs,
        Text.isLineBreak c = false := by
      simpa using h
    rw [splitLines_intercalate e (by simp) hchars, splitLines_intercalate e' (by simp) hchars]

end LineEnd

end AsmHighlight
