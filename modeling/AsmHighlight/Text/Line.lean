-- SUMMARY: Splitting a text into lines, and lining texts up in columns.

/-!
# Lines and columns

A line ends at LF, at CR, or at the pair CR LF, which counts once. A text with
`n` line ends has `n + 1` lines, the last of which may be empty. Padding to the
width of a column counts characters, and a text that is already wide enough
stays as it is.
-/

namespace AsmHighlight.Text

/-- The lines of a text, as character lists; there is always at least one. -/
def splitLines : List Char → List (List Char)
  | [] => [[]]
  | '\r' :: '\n' :: rest => [] :: splitLines rest
  | '\r' :: rest => [] :: splitLines rest
  | '\n' :: rest => [] :: splitLines rest
  | c :: rest =>
    match splitLines rest with
    | [] => [[c]]
    | line :: more => (c :: line) :: more

def lines (s : String) : List String :=
  (splitLines s.toList).map String.ofList

/-- Every line end written as one LF. -/
def unifyLineEnds : List Char → List Char
  | [] => []
  | '\r' :: '\n' :: rest => '\n' :: unifyLineEnds rest
  | '\r' :: rest => '\n' :: unifyLineEnds rest
  | c :: rest => c :: unifyLineEnds rest

/-- The character `c`, `n` times; none for a negative count. -/
def repeated (c : Char) (n : Int) : String :=
  String.ofList (List.replicate n.toNat c)

/-- The text followed by blanks up to the width. -/
def padRight (width : Nat) (s : String) : String :=
  s ++ String.ofList (List.replicate (width - s.length) ' ')

/-- The text preceded by blanks up to the width. -/
def padLeft (width : Nat) (s : String) : String :=
  String.ofList (List.replicate (width - s.length) ' ') ++ s

def plural (count : Nat) : String :=
  if count = 1 then "" else "s"

end AsmHighlight.Text
