-- SUMMARY: The order of texts by code points, and sorted lists of texts.

/-!
# Order of texts

Texts are ordered by their first differing code point. The order is total, so
sorting leaves nothing to chance.
-/

namespace AsmHighlight.Text

/-- The first list of code points does not come after the second. -/
def codesLe : List Nat → List Nat → Bool
  | [], _ => true
  | _ :: _, [] => false
  | a :: as, b :: bs => if a < b then true else if b < a then false else codesLe as bs

def textCodes (s : String) : List Nat :=
  s.toList.map Char.toNat

/-- The first text does not come after the second. -/
def textLe (a b : String) : Bool :=
  codesLe (textCodes a) (textCodes b)

/-- The texts in order, each once. -/
def sortedNames (names : List String) : List String :=
  names.eraseDups.mergeSort textLe

-- ---------------------------------------------------------------------------
-- Laws
-- ---------------------------------------------------------------------------

theorem codesLe_refl (as : List Nat) : codesLe as as = true := by
  induction as with
  | nil => rfl
  | cons a as ih => simp [codesLe, ih]

theorem codesLe_total (as bs : List Nat) : codesLe as bs = true ∨ codesLe bs as = true := by
  fun_induction codesLe as bs with
  | case1 => simp
  | case2 => simp [codesLe]
  | case3 => simp
  | case4 a as b bs _ h => simp [codesLe, h]
  | case5 a as b bs h h' ih =>
    rcases ih with ih | ih
    · exact .inl ih
    · exact .inr (by simp [codesLe, h, h', ih])

theorem codesLe_trans {as bs cs : List Nat} (h : codesLe as bs = true)
    (h' : codesLe bs cs = true) : codesLe as cs = true := by
  induction as generalizing bs cs with
  | nil => simp [codesLe]
  | cons a as ih =>
    cases bs with
    | nil => simp [codesLe] at h
    | cons b bs =>
      cases cs with
      | nil => simp [codesLe] at h'
      | cons c cs =>
        simp only [codesLe] at h h' ⊢
        by_cases ab : a < b
        · by_cases bc : b < c
          · simp [show a < c by omega]
          · by_cases cb : c < b
            · simp [bc, cb] at h'
            · simp [show a < c by omega]
        · by_cases ba : b < a
          · simp [ab, ba] at h
          · by_cases bc : b < c
            · simp [show a < c by omega]
            · by_cases cb : c < b
              · simp [bc, cb] at h'
              · simp only [ab, ba, bc, cb, if_false] at h h'
                simp [show ¬ a < c by omega, show ¬ c < a by omega, ih h h']

theorem codesLe_antisymm {as bs : List Nat} (h : codesLe as bs = true)
    (h' : codesLe bs as = true) : as = bs := by
  induction as generalizing bs with
  | nil =>
    cases bs with
    | nil => rfl
    | cons b bs => simp [codesLe] at h'
  | cons a as ih =>
    cases bs with
    | nil => simp [codesLe] at h
    | cons b bs =>
      simp only [codesLe] at h h'
      by_cases ab : a < b
      · simp [ab, show ¬ b < a by omega] at h'
      · by_cases ba : b < a
        · simp [ab, ba] at h
        · simp only [ab, ba, if_false] at h h'
          rw [show a = b by omega, ih h h']

/-- A text is known by its code points. -/
theorem textCodes_injective {a b : String} (h : textCodes a = textCodes b) : a = b :=
  String.toList_inj.mp (List.map_inj_right (fun _ _ => Char.toNat_inj.mp) |>.mp h)

end AsmHighlight.Text
