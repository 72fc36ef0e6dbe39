-- SUMMARY: The edit distance, computed row by row, is the least number of edits.
import AsmHighlight.Label.Similar
import AsmHighlight.Proofs.Text.Edits

/-!
# Edit distance

The distance is computed with one row of numbers at a time: after some characters of
the longer text, the row holds the least numbers of edits to every beginning of the
shorter one (`prefixRow`). Reading one more character makes the next such row
(`nextRow_prefixRow`), so the last row ends with the distance of the texts
(`distanceChars_eq`). Where the two characters are equal the row takes the number on
the diagonal without a look at the others, which is right because matching equal
characters loses nothing.

The computation does not depend on which text is the longer one, so the distance has
all the laws of the least number of edits (`editDistance_least`).
-/

namespace AsmHighlight.Label

open Text

/-- The least numbers of edits from `read` to the beginnings of `front ++ back` that hold
    all of `front`, the shortest first. -/
def prefixRow (read front : List Char) : (back : List Char) → List Nat
  | [] => [leastEdits read front]
  | d :: back => leastEdits read front :: prefixRow read (front ++ [d]) back

theorem exists_prefixRow_eq_cons (read front back : List Char) :
    ∃ more, prefixRow read front back = leastEdits read front :: more := by
  cases back with
  | nil => exact ⟨[], rfl⟩
  | cons d back => exact ⟨_, rfl⟩

/-- The last number of a row is the one for the whole text. -/
theorem getLastD_prefixRow (read front back : List Char) :
    (prefixRow read front back).getLastD 0 = leastEdits read (front ++ back) := by
  induction back generalizing front with
  | nil => rw [List.append_nil]; rfl
  | cons d back ih =>
    obtain ⟨more, hmore⟩ := exists_prefixRow_eq_cons read (front ++ [d]) back
    have h := ih (front ++ [d])
    rw [hmore, List.append_assoc, List.singleton_append] at h
    rw [prefixRow, hmore]
    exact h

/-- Before any character is read, the row counts the characters of the beginnings. -/
theorem prefixRow_nil (front back : List Char) :
    prefixRow [] front back = List.range' front.length (back.length + 1) := by
  induction back generalizing front with
  | nil => rw [prefixRow, leastEdits_nil_left]; rfl
  | cons d back ih =>
    rw [prefixRow, ih, leastEdits_nil_left, List.length_append, List.length_cons]
    rfl

-- ---------------------------------------------------------------------------
-- Rows
-- ---------------------------------------------------------------------------

section Step

variable (read : List Char) (c : Char)

/-- The least number of edits, as a row computes it from its three neighbours. -/
theorem leastEdits_step (front : List Char) (d : Char) :
    leastEdits (read ++ [c]) (front ++ [d]) =
      if c = d then leastEdits read front
      else 1 + min (min (leastEdits read front) (leastEdits read (front ++ [d])))
        (leastEdits (read ++ [c]) front) := by
  split
  next h => rw [h, leastEdits_concat_self]
  next h =>
    rw [leastEdits_concat_concat, if_neg h]
    omega

/-- One step of a row: from the row above it comes the row behind the number on the left. -/
theorem rowFrom_prefixRow (front back : List Char) :
    leastEdits (read ++ [c]) front ::
        rowFrom c (leastEdits (read ++ [c]) front) back (prefixRow read front back) =
      prefixRow (read ++ [c]) front back := by
  induction back generalizing front with
  | nil => rfl
  | cons d back ih =>
    obtain ⟨more, hmore⟩ := exists_prefixRow_eq_cons read (front ++ [d]) back
    have h := ih (front ++ [d])
    rw [hmore, leastEdits_step] at h
    rw [prefixRow, hmore, rowFrom, prefixRow]
    simp only [h]

/-- Reading one more character makes the next row. -/
theorem nextRow_prefixRow (shorter : List Char) :
    nextRow shorter read.length c (prefixRow read [] shorter) =
      prefixRow (read ++ [c]) [] shorter := by
  have hfirst : leastEdits (read ++ [c]) [] = read.length + 1 := by
    rw [leastEdits_nil_right, List.length_append, List.length_singleton]
  rw [← rowFrom_prefixRow, hfirst]
  rfl

end Step

/-- Reading the rest of the longer text makes the row of the whole of it. -/
theorem lastRow_prefixRow (shorter read rest : List Char) :
    lastRow shorter read.length (prefixRow read [] shorter) rest =
      prefixRow (read ++ rest) [] shorter := by
  induction rest generalizing read with
  | nil => rw [List.append_nil]; rfl
  | cons c rest ih =>
    have h := ih (read ++ [c])
    rw [List.length_append, List.length_singleton, List.append_assoc, List.singleton_append] at h
    rw [lastRow, nextRow_prefixRow, h]

theorem distanceChars_eq (longer shorter : List Char) :
    distanceChars longer shorter = leastEdits longer shorter := by
  have hstart : List.range (shorter.length + 1) = prefixRow [] [] shorter := by
    rw [prefixRow_nil, List.range_eq_range']
    rfl
  have hrow := lastRow_prefixRow shorter [] longer
  rw [List.length_nil, List.nil_append] at hrow
  rw [distanceChars, hstart, hrow, getLastD_prefixRow, List.nil_append]

-- ---------------------------------------------------------------------------
-- Texts
-- ---------------------------------------------------------------------------

theorem editDistance_eq (a b : String) :
    editDistance a b = leastEdits a.toList b.toList := by
  unfold editDistance
  split
  next => rw [distanceChars_eq, leastEdits_comm]
  next => rw [distanceChars_eq]

/-- The edit distance is the least number of edits that turn one text into the other. It
    follows the recursion over their last characters, and is a metric. -/
theorem editDistance_least (a b : String) :
    IsLeast {n | Edits n a.toList b.toList} (editDistance a b) ∧
    (editDistance a "" = a.length ∧ editDistance "" b = b.length ∧
      ∀ c d, editDistance (a.push c) (b.push d) =
        min (min (editDistance a (b.push d)) (editDistance (a.push c) b) + 1)
          (editDistance a b + if c = d then 0 else 1)) ∧
    editDistance b a = editDistance a b ∧
    (editDistance a b = 0 ↔ a = b) ∧
    ∀ via, editDistance a b ≤ editDistance a via + editDistance via b := by
  simp only [editDistance_eq, String.toList_push, String.toList_empty]
  refine ⟨isLeast_leastEdits _ _, ⟨?_, ?_, fun c d => leastEdits_concat_concat _ _ c d⟩,
    leastEdits_comm _ _, ?_, fun via => leastEdits_triangle _ _ _⟩
  · rw [leastEdits_nil_right, String.length_toList]
  · rw [leastEdits_nil_left, String.length_toList]
  · rw [leastEdits_eq_zero_iff, String.toList_inj]

-- Two substitutions and one insertion.
example : editDistance "kitten" "sitting" = 3 := by decide

end AsmHighlight.Label
