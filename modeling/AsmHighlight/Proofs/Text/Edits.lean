-- SUMMARY: Edits of single characters, and the least number of them between two texts.
import Mathlib.Order.Bounds.Basic

/-!
# Edits

An edit puts one character in, takes one out, or replaces one (`Edit`). The least
number of edits that turn one text into another follows a recursion over the
characters of both (`leastEdits`).

That so many edits are enough is read off the recursion (`edits_leastEdits`). That
fewer are not rests on one fact: a single edit, wherever it is made, changes the
result of the recursion by one at most (`Edit.leastEdits_le`). Edits can be undone,
done in turn, and made in the reverse of a text, so the least number of them is
symmetric, satisfies the triangle inequality, and follows the same recursion from the
end of the texts (`leastEdits_concat_concat`).
-/

namespace AsmHighlight.Text

/-- One edit of a text. -/
inductive Edit : List Char → List Char → Prop where
  | insert (front : List Char) (c : Char) (back : List Char) :
      Edit (front ++ back) (front ++ c :: back)
  | delete (front : List Char) (c : Char) (back : List Char) :
      Edit (front ++ c :: back) (front ++ back)
  | substitute (front : List Char) (c d : Char) (back : List Char) :
      Edit (front ++ c :: back) (front ++ d :: back)

/-- `n` edits one after the other. -/
inductive Edits : Nat → List Char → List Char → Prop where
  | none (cs : List Char) : Edits 0 cs cs
  | step {n : Nat} {as bs cs : List Char} (h : Edit as bs) (hmore : Edits n bs cs) :
      Edits (n + 1) as cs

theorem Edit.symm {as bs : List Char} (h : Edit as bs) : Edit bs as := by
  cases h with
  | insert front c back => exact .delete front c back
  | delete front c back => exact .insert front c back
  | substitute front c d back => exact .substitute front d c back

theorem Edit.cons {as bs : List Char} (h : Edit as bs) (c : Char) : Edit (c :: as) (c :: bs) := by
  cases h with
  | insert front d back => exact .insert (c :: front) d back
  | delete front d back => exact .delete (c :: front) d back
  | substitute front d e back => exact .substitute (c :: front) d e back

theorem Edit.reverse {as bs : List Char} (h : Edit as bs) : Edit as.reverse bs.reverse := by
  cases h with
  | insert front c back => simpa using Edit.insert back.reverse c front.reverse
  | delete front c back => simpa using Edit.delete back.reverse c front.reverse
  | substitute front c d back => simpa using Edit.substitute back.reverse c d front.reverse

namespace Edits

variable {m n : Nat} {as bs cs : List Char}

theorem single (h : Edit as bs) : Edits 1 as bs :=
  .step h (.none bs)

theorem trans (h : Edits m as bs) (hmore : Edits n bs cs) : Edits (m + n) as cs := by
  induction h with
  | none => rwa [Nat.zero_add]
  | @step m as bs bs' h _ ih =>
    rw [Nat.add_right_comm]
    exact .step h (ih hmore)

theorem symm (h : Edits n as bs) : Edits n bs as := by
  induction h with
  | none cs => exact .none cs
  | step h _ ih => exact ih.trans (single h.symm)

theorem cons (h : Edits n as bs) (c : Char) : Edits n (c :: as) (c :: bs) := by
  induction h with
  | none cs => exact .none (c :: cs)
  | step h _ ih => exact .step (h.cons c) ih

theorem reverse (h : Edits n as bs) : Edits n as.reverse bs.reverse := by
  induction h with
  | none cs => exact .none cs.reverse
  | step h _ ih => exact .step h.reverse ih

theorem delete (h : Edits n as bs) (a : Char) : Edits (n + 1) (a :: as) bs :=
  .step (.delete [] a as) h

theorem insert (h : Edits n as bs) (b : Char) : Edits (n + 1) as (b :: bs) :=
  h.trans (single (.insert [] b bs))

theorem substitute (h : Edits n as bs) (a b : Char) : Edits (n + 1) (a :: as) (b :: bs) :=
  .step (.substitute [] a b as) (h.cons b)

theorem fewer (h : Edits m as bs) (h' : Edits n as bs) : Edits (min m n) as bs := by
  rcases Nat.le_total m n with hle | hle
  · rwa [Nat.min_eq_left hle]
  · rwa [Nat.min_eq_right hle]

theorem deleteAll (cs : List Char) : Edits cs.length cs [] := by
  induction cs with
  | nil => exact .none []
  | cons c cs ih => exact ih.delete c

end Edits

-- ---------------------------------------------------------------------------
-- The recursion
-- ---------------------------------------------------------------------------

/-- The least number of edits, by what becomes of the first characters: one of them is
    an edit of its own, or they are matched. -/
def leastEdits : (as bs : List Char) → Nat
  | [], bs => bs.length
  | as, [] => as.length
  | a :: as, b :: bs =>
    min (min (leastEdits as (b :: bs)) (leastEdits (a :: as) bs) + 1)
      (leastEdits as bs + if a = b then 0 else 1)
termination_by as bs => as.length + bs.length

theorem leastEdits_nil_left (bs : List Char) : leastEdits [] bs = bs.length := by
  rw [leastEdits]

theorem leastEdits_nil_right (as : List Char) : leastEdits as [] = as.length := by
  cases as with
  | nil => exact leastEdits_nil_left []
  | cons a as => rw [leastEdits]; exact nofun

theorem leastEdits_cons_cons (a b : Char) (as bs : List Char) :
    leastEdits (a :: as) (b :: bs) =
      min (min (leastEdits as (b :: bs)) (leastEdits (a :: as) bs) + 1)
        (leastEdits as bs + if a = b then 0 else 1) := by
  rw [leastEdits]

/-- The edits that the recursion counts can be made. -/
theorem edits_leastEdits (as bs : List Char) : Edits (leastEdits as bs) as bs := by
  fun_induction leastEdits as bs with
  | case1 bs => exact (Edits.deleteAll bs).symm
  | case2 as => exact Edits.deleteAll as
  | case3 a as b bs hdelete hinsert hmatch =>
    have hmatched : Edits (leastEdits as bs + if a = b then 0 else 1) (a :: as) (b :: bs) := by
      split
      next h => exact h ▸ hmatch.cons a
      next => exact hmatch.substitute a b
    have hedited : Edits (min (leastEdits as (b :: bs)) (leastEdits (a :: as) bs) + 1)
        (a :: as) (b :: bs) := by
      rw [← Nat.add_min_add_right]
      exact (hdelete.delete a).fewer (hinsert.insert b)
    exact hedited.fewer hmatched

-- ---------------------------------------------------------------------------
-- Fewer edits are not enough
-- ---------------------------------------------------------------------------

theorem leastEdits_cons_left_le (a : Char) (as bs : List Char) :
    leastEdits (a :: as) bs ≤ leastEdits as bs + 1 := by
  cases bs with
  | nil => simp [leastEdits_nil_right]
  | cons b bs =>
    rw [leastEdits_cons_cons]
    omega

theorem leastEdits_cons_right_le (as : List Char) (b : Char) (bs : List Char) :
    leastEdits as (b :: bs) ≤ leastEdits as bs + 1 := by
  cases as with
  | nil => simp [leastEdits_nil_left]
  | cons a as =>
    rw [leastEdits_cons_cons]
    omega

theorem leastEdits_le_cons_left (a : Char) (as bs : List Char) :
    leastEdits as bs ≤ leastEdits (a :: as) bs + 1 := by
  induction bs with
  | nil =>
    simp only [leastEdits_nil_right, List.length_cons]
    omega
  | cons b bs ih =>
    have hinsert := leastEdits_cons_right_le as b bs
    rw [leastEdits_cons_cons]
    omega

theorem leastEdits_substitute_le (a b : Char) (as bs : List Char) :
    leastEdits (a :: as) bs ≤ leastEdits (b :: as) bs + 1 := by
  induction bs with
  | nil =>
    simp only [leastEdits_nil_right, List.length_cons]
    omega
  | cons c bs ih =>
    rw [leastEdits_cons_cons, leastEdits_cons_cons]
    split <;> split <;> omega

/-- What holds of an edit at some place still does with one more character in front. -/
theorem leastEdits_cons_le {as bs : List Char}
    (h : ∀ cs, leastEdits as cs ≤ leastEdits bs cs + 1) (c : Char) (cs : List Char) :
    leastEdits (c :: as) cs ≤ leastEdits (c :: bs) cs + 1 := by
  induction cs with
  | nil =>
    have hnil := h []
    simp only [leastEdits_nil_right, List.length_cons] at hnil ⊢
    omega
  | cons d cs ih =>
    have hdelete := h (d :: cs)
    have hmatch := h cs
    rw [leastEdits_cons_cons, leastEdits_cons_cons]
    omega

/-- An edit makes a difference of one at most. -/
theorem Edit.leastEdits_le {as bs : List Char} (h : Edit as bs) (cs : List Char) :
    leastEdits as cs ≤ leastEdits bs cs + 1 := by
  cases h with
  | insert front c back =>
    induction front generalizing cs with
    | nil => exact leastEdits_le_cons_left c back cs
    | cons d front ih => exact leastEdits_cons_le ih d cs
  | delete front c back =>
    induction front generalizing cs with
    | nil => exact leastEdits_cons_left_le c back cs
    | cons d front ih => exact leastEdits_cons_le ih d cs
  | substitute front c d back =>
    induction front generalizing cs with
    | nil => exact leastEdits_substitute_le c d back cs
    | cons e front ih => exact leastEdits_cons_le ih e cs

theorem leastEdits_self (cs : List Char) : leastEdits cs cs = 0 := by
  induction cs with
  | nil => exact leastEdits_nil_left []
  | cons c cs ih => rw [leastEdits_cons_cons, if_pos rfl, ih, Nat.add_zero, Nat.min_zero]

theorem leastEdits_le_of_edits {n : Nat} {as bs : List Char} (h : Edits n as bs) :
    leastEdits as bs ≤ n := by
  induction h with
  | none cs => rw [leastEdits_self]
  | step h _ ih => exact (h.leastEdits_le _).trans (Nat.succ_le_succ ih)

/-- The recursion counts the least number of edits. -/
theorem isLeast_leastEdits (as bs : List Char) :
    IsLeast {n | Edits n as bs} (leastEdits as bs) :=
  ⟨edits_leastEdits as bs, fun _ => leastEdits_le_of_edits⟩

-- ---------------------------------------------------------------------------
-- Laws
-- ---------------------------------------------------------------------------

theorem leastEdits_eq_zero_iff {as bs : List Char} : leastEdits as bs = 0 ↔ as = bs := by
  constructor
  · intro h
    have hedits := edits_leastEdits as bs
    rw [h] at hedits
    cases hedits
    rfl
  · rintro rfl
    exact leastEdits_self as

theorem leastEdits_comm (as bs : List Char) : leastEdits as bs = leastEdits bs as :=
  Nat.le_antisymm (leastEdits_le_of_edits (edits_leastEdits bs as).symm)
    (leastEdits_le_of_edits (edits_leastEdits as bs).symm)

theorem leastEdits_triangle (as bs cs : List Char) :
    leastEdits as cs ≤ leastEdits as bs + leastEdits bs cs :=
  leastEdits_le_of_edits ((edits_leastEdits as bs).trans (edits_leastEdits bs cs))

theorem leastEdits_reverse (as bs : List Char) :
    leastEdits as.reverse bs.reverse = leastEdits as bs := by
  apply Nat.le_antisymm
  · exact leastEdits_le_of_edits (edits_leastEdits as bs).reverse
  · have h := leastEdits_le_of_edits (edits_leastEdits as.reverse bs.reverse).reverse
    rwa [List.reverse_reverse, List.reverse_reverse] at h

/-- The recursion over the last characters. -/
theorem leastEdits_concat_concat (as bs : List Char) (a b : Char) :
    leastEdits (as ++ [a]) (bs ++ [b]) =
      min (min (leastEdits as (bs ++ [b])) (leastEdits (as ++ [a]) bs) + 1)
        (leastEdits as bs + if a = b then 0 else 1) := by
  rw [← leastEdits_reverse (as ++ [a]), ← leastEdits_reverse as (bs ++ [b]),
    ← leastEdits_reverse (as ++ [a]) bs, ← leastEdits_reverse as bs]
  simp only [List.reverse_append, List.reverse_singleton, List.singleton_append]
  exact leastEdits_cons_cons a b as.reverse bs.reverse

/-- Characters that are equal can be matched without loss. -/
theorem leastEdits_concat_self (as bs : List Char) (c : Char) :
    leastEdits (as ++ [c]) (bs ++ [c]) = leastEdits as bs := by
  have hshorten (cs ds : List Char) : leastEdits cs ds ≤ leastEdits (cs ++ [c]) ds + 1 := by
    have hedit : Edit cs (cs ++ [c]) := by simpa using Edit.insert cs c []
    exact hedit.leastEdits_le ds
  have hleft := hshorten as bs
  have hright := hshorten bs as
  rw [leastEdits_comm bs as, leastEdits_comm (bs ++ [c]) as] at hright
  rw [leastEdits_concat_concat, if_pos rfl]
  omega

end AsmHighlight.Text
