-- SUMMARY: Edit distance, and label names close to a misspelt one.
import AsmHighlight.Text.Lowercase

/-!
# Similar names

The edit distance of two texts is the least number of insertions, deletions and
substitutions of single characters that turn one into the other. It is computed
row by row over the longer text. Names are similar when they differ in case
only, or in at most one character of length and two edits.
-/

namespace AsmHighlight.Label

/-- The rest of a row of distances. `above` is the previous row from the column on
    that the first character of the shorter text ends, `left` the distance that was
    found last. -/
def rowFrom (c : Char) : (left : Nat) → List Char → (above : List Nat) → List Nat
  | left, d :: ds, diagonal :: up :: more =>
    let distance := if c = d then diagonal else 1 + min (min diagonal up) left
    distance :: rowFrom c distance ds (up :: more)
  | _, _, _ => []

/-- The distances between the first `index + 1` characters of the longer text, the
    last of which is `c`, and every beginning of the shorter one. -/
def nextRow (shorter : List Char) (index : Nat) (c : Char) (above : List Nat) : List Nat :=
  (index + 1) :: rowFrom c (index + 1) shorter above

/-- The last row of distances, from the row after `index` characters on. -/
def lastRow (shorter : List Char) (index : Nat) (above : List Nat) : List Char → List Nat
  | [] => above
  | c :: rest => lastRow shorter (index + 1) (nextRow shorter index c above) rest

/-- The edit distance where the first text is at least as long as the second. -/
def distanceChars (longer shorter : List Char) : Nat :=
  (lastRow shorter 0 (List.range (shorter.length + 1)) longer).getLastD 0

def editDistance (a b : String) : Nat :=
  if a.length < b.length then distanceChars b.toList a.toList
  else distanceChars a.toList b.toList

/-- The lengths differ by at most one. -/
def closeLengths (a b : String) : Bool :=
  a.length ≤ b.length + 1 && b.length ≤ a.length + 1

def isSimilar (name candidate : String) : Bool :=
  Text.lowercase candidate = Text.lowercase name ||
    (closeLengths candidate name &&
      editDistance (Text.lowercase name) (Text.lowercase candidate) ≤ 2)

/-- At most three similar candidates, in order. -/
def similar (name : String) (candidates : List String) : List String :=
  (candidates.filter (isSimilar name)).take 3

end AsmHighlight.Label
