-- SUMMARY: The line that a report shows, and what its carets stand under.
import AsmHighlight.Diagnostic.Report
import AsmHighlight.Proofs.Source.Reading

/-!
# Excerpts

A report on a diagnostic shows a line of the document and carets below it. The
line is looked up by its number and the carets are placed by column, so both
are right only if lines and columns were counted as the lines are split. `Shown`
says that they are, and it holds of every diagnostic whose range covers part of
one line (`Range.Covering.exists_shown`).
-/

namespace AsmHighlight

theorem Text.slice_append {text : String} {left piece right : List Char}
    (h : text.toList = left ++ (piece ++ right)) {start stop : Int} (hstart : start = left.length)
    (hstop : stop = start + piece.length) : slice text start stop = String.ofList piece := by
  have hlength : (stop - start).toNat = piece.length := by omega
  rw [slice, h, hlength, hstart, Int.toNat_natCast, List.drop_left, List.take_left]

namespace Diagnostic

/-- The first line of a report: the place, the severity and the message. -/
def headline (d : Diagnostic) (filename : String) : String :=
  s!"{filename}:{d.range.start.text}: {d.severity.name}: {d.message}"

/-- The last line of a report, if there is a hint. -/
def advice (d : Diagnostic) : List String :=
  d.hint?.elim [] fun hint => ["hint: " ++ hint]

/-- The report shows `line`, which is the line of the document that the diagnostic is
    on, and carets under the characters of its range, which come after `left`. -/
structure Shown (d : Diagnostic) (source line left : String) : Prop where
  one_line : d.range.start.line = d.range.stop.line
  line_pos : 1 ≤ d.range.start.line
  line_le : d.range.start.line ≤ (Text.lines source).length
  line_eq : (Text.lines source)[(d.range.start.line - 1).toNat]? = some line
  offset_nonneg : 0 ≤ d.range.start.offset
  /-- The columns of the line hold what the offsets of the document hold. -/
  slice_eq : Text.slice line (d.range.start.column - 1) (d.range.stop.column - 1) =
    Text.slice source d.range.start.offset d.range.stop.offset
  slice_ne : Text.slice source d.range.start.offset d.range.stop.offset ≠ ""
  column_eq : d.range.start.column = left.length + 1
  line_split : ∃ right,
    line = left ++ Text.slice source d.range.start.offset d.range.stop.offset ++ right
  render_eq : ∀ filename, d.render (some source) filename = String.intercalate "\n"
    (d.headline filename :: ("    " ++ line) ::
      String.ofList (List.replicate (4 + left.length) ' ' ++
        List.replicate (Text.slice source d.range.start.offset d.range.stop.offset).length '^') ::
      d.advice)

/-- The carets of an excerpt start below the column of the range, and there are as many
    as it has characters. -/
theorem excerpt_eq {source line : String} {r : Range} {indent width : Nat}
    (hline : sourceLine? source r = some line) (hone : r.stop.line = r.start.line)
    (hstart : r.start.column = indent + 1) (hstop : r.stop.column = r.start.column + width)
    (hwidth : 0 < width) :
    excerpt source r = ["    " ++ line,
      String.ofList (List.replicate (4 + indent) ' ' ++ List.replicate width '^')] := by
  have hcount : (caretCount r line).toNat = width := by
    rw [caretCount, if_pos hone]
    omega
  have hindent : (4 + r.start.column - 1).toNat = 4 + indent := by omega
  simp only [excerpt, hline, Text.repeated, hcount, hindent, String.ofList_append]

end Diagnostic

/-- The report on a part of one line shows that line, with carets under that part. -/
theorem Range.Covering.exists_shown {d : Diagnostic} {source : String}
    {before piece behind : List Char} (h : d.range.Covering source.toList before piece behind) :
    ∃ line left, d.Shown source line left := by
  obtain ⟨done, left, right, more, hlines, hline, hcolumn⟩ := h.exists_line
  have hstop := h.stop_eq
  have hone : d.range.stop.line = d.range.start.line := by rw [hstop, Position.shift]
  have hwidth : d.range.stop.column = d.range.start.column + piece.length := by
    rw [hstop, Position.column_shift]
  have hpiece : Text.slice source d.range.start.offset d.range.stop.offset =
      String.ofList piece :=
    Text.slice_append h.text_eq h.start_offset (by rw [hstop, Position.offset_shift])
  have hindex : (Text.lines source)[(d.range.start.line - 1).toNat]? =
      some (String.ofList (left ++ piece ++ right)) := by
    rw [Text.lines, hlines, show (d.range.start.line - 1).toNat = done.length by omega]
    simp
  refine ⟨String.ofList (left ++ piece ++ right), String.ofList left, ?_⟩
  constructor
  case one_line => exact hone.symm
  case line_pos => omega
  case line_le =>
    rw [Text.lines, List.length_map, hlines, List.length_append, List.length_cons]
    omega
  case line_eq => exact hindex
  case offset_nonneg =>
    rw [h.start_offset]
    exact Int.natCast_nonneg _
  case slice_eq =>
    have htext : (String.ofList (left ++ piece ++ right)).toList = left ++ (piece ++ right) := by
      rw [String.toList_ofList, List.append_assoc]
    rw [hpiece]
    exact Text.slice_append htext (by omega) (by omega)
  case slice_ne =>
    rw [hpiece]
    simpa using h.ne_nil
  case column_eq => rw [String.length_ofList, hcolumn]
  case line_split =>
    refine ⟨String.ofList right, ?_⟩
    rw [hpiece, ← String.ofList_append, ← String.ofList_append]
  case render_eq =>
    intro filename
    have hshown : Diagnostic.sourceLine? source d.range =
        some (String.ofList (left ++ piece ++ right)) := by
      rw [Diagnostic.sourceLine?, if_pos (by omega), hindex]
    have hexcerpt :=
      Diagnostic.excerpt_eq hshown hone hcolumn hwidth (List.length_pos_iff.mpr h.ne_nil)
    rw [hpiece, String.length_ofList, String.length_ofList, Diagnostic.render, Option.elim_some,
      hexcerpt]
    rfl

end AsmHighlight
