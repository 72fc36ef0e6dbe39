-- SUMMARY: How alike two words are, and the best matches for a misspelt one.
import AsmHighlight.Text.Order

/-!
# Likeness of words

The likeness of two words is the share of their characters that lie in common
blocks. The blocks are found by taking the longest common block, the leftmost
in the first word and then in the second, and going on to both sides of it.
Words are close when at least six tenths of their characters are shared.
-/

namespace AsmHighlight.Command

/-- The length of the common beginning of two words. -/
def commonStart : List Char → List Char → Nat
  | a :: as, b :: bs => if a = b then commonStart as bs + 1 else 0
  | _, _ => 0

/-- A common block: where it starts in either word, and its length. -/
structure Block where
  left : Nat
  right : Nat
  length : Nat

/-- The longest common block, the leftmost of several. -/
def longestBlock (a b : List Char) : Block :=
  let starts := (List.range a.length).flatMap fun i => (List.range b.length).map fun j => (i, j)
  starts.foldl (fun best (i, j) =>
    let length := commonStart (a.drop i) (b.drop j)
    if best.length < length then ⟨i, j, length⟩ else best) ⟨0, 0, 0⟩

/-- The number of characters in common blocks, found in at most `fuel` levels. -/
def sharedCount : (fuel : Nat) → List Char → List Char → Nat
  | 0, _, _ => 0
  | fuel + 1, a, b =>
    let block := longestBlock a b
    if block.length = 0 then 0
    else
      sharedCount fuel (a.take block.left) (b.take block.right) + block.length +
        sharedCount fuel (a.drop (block.left + block.length)) (b.drop (block.right + block.length))

/-- The likeness of two words, as a quotient. -/
def likeness (a b : String) : Nat × Nat :=
  (2 * sharedCount (a.length + 1) a.toList b.toList, a.length + b.length)

/-- The candidate is close enough to the word. -/
def isClose (word candidate : String) : Bool :=
  let (shared, total) := likeness candidate word
  6 * total ≤ 10 * shared

/-- The first candidate is the better match; of equally good ones, the later name. -/
def betterMatch (word a b : String) : Bool :=
  let (sharedA, totalA) := likeness a word
  let (sharedB, totalB) := likeness b word
  if sharedA * totalB = sharedB * totalA then Text.textLe b a
  else sharedB * totalA < sharedA * totalB

/-- The three best matches for a word, in order of name. -/
def closeMatches (word : String) (candidates : List String) : List String :=
  Text.sortedNames (((candidates.filter (isClose word)).mergeSort (betterMatch word)).take 3)

end AsmHighlight.Command
