-- SUMMARY: Diagnostics as text for people, with the line they are about.
import AsmHighlight.Diagnostic.Basic
import AsmHighlight.Text.Line

/-!
# Reports

A diagnostic is shown with its place and message. When the document is at
hand, its line follows, indented by four blanks, with carets under the span;
a span that goes on to a later line is underlined to the end of its first one.
At least one caret is shown. A report is all diagnostics, with a blank line
after each, and a summary.
-/

namespace AsmHighlight.Diagnostic

/-- The number of carets under a line. -/
def caretCount (r : Range) (line : String) : Int :=
  if r.stop.line = r.start.line then max 1 (r.stop.column - r.start.column)
  else max 1 ((line.length : Int) - r.start.column + 1)

/-- The line that a range starts on. -/
def sourceLine? (source : String) (r : Range) : Option String :=
  if 0 < r.start.line then (Text.lines source)[(r.start.line - 1).toNat]? else none

/-- The line with carets under the range; nothing when there is no such line. -/
def excerpt (source : String) (r : Range) : List String :=
  match sourceLine? source r with
  | none => []
  | some line =>
    ["    " ++ line,
     Text.repeated ' ' (4 + r.start.column - 1) ++ Text.repeated '^' (caretCount r line)]

def render (d : Diagnostic) (source : Option String) (filename : String) : String :=
  let headline := s!"{filename}:{d.range.start.text}: {d.severity.name}: {d.message}"
  let context := source.elim [] fun text => excerpt text d.range
  let advice := d.hint?.elim [] fun hint => ["hint: " ++ hint]
  String.intercalate "\n" (headline :: context ++ advice)

/-- The number of errors and warnings in words. -/
def summary (ds : List Diagnostic) (filename : String) : String :=
  let errors := errorCount ds
  let warnings := ds.length - errors
  s!"{filename}: {errors} error{Text.plural errors}, {warnings} warning{Text.plural warnings}"

/-- All diagnostics as text, with a summary. -/
def report (ds : List Diagnostic) (source : Option String) (filename : String) : String :=
  String.intercalate "\n"
    (ds.flatMap (fun d => [d.render source filename, ""]) ++ [summary ds filename])

/-- The file name used when none is given. -/
def defaultFilename : String := "<input>"

end AsmHighlight.Diagnostic
