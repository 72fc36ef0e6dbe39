-- SUMMARY: Lower-casing, names and leads of words do not depend on the ASCII case of letters.
import AsmHighlight.Proofs.Token.Word

/-!
# Recased words

`String.toLower` changes the capital letters of ASCII and nothing else. Texts
that it makes equal differ in the ASCII case of their letters only. Such texts
have the same lower-casing (`lowercase_toLower`), although a capital sigma looks
at the letters around it; they are names together (`isIdentifier_toLower`), and
they lead classification to the same rule (`leadOf_toLower`).

That a function of one character does not depend on its case is a check of the
ASCII characters (`apply_toLower`).
-/

namespace AsmHighlight

namespace Text

-- ---------------------------------------------------------------------------
-- Characters
-- ---------------------------------------------------------------------------

theorem toLower_eq_self {c : Char} (hc : ¬ c.isUpper = true) : c.toLower = c :=
  dif_neg fun hupper => hc (decide_eq_true hupper)

theorem toNat_lt_of_isUpper {c : Char} (hc : c.isUpper = true) : c.toNat < 128 := by
  have hle : c.val ≤ 'Z'.val := (of_decide_eq_true hc).2
  exact Nat.lt_of_le_of_lt (UInt32.le_iff_toNat_le.mp hle) (by decide)

/-- What takes every ASCII character for its small form does so for every character. -/
theorem apply_toLower {α : Type} {f : Char → α}
    (h : ∀ n < 128, f (Char.ofNat n).toLower = f (Char.ofNat n)) (c : Char) : f c.toLower = f c := by
  by_cases hc : c.isUpper = true
  · exact forall_ascii (P := fun c => f c.toLower = f c) h (toNat_lt_of_isUpper hc)
  · rw [toLower_eq_self hc]

/-- No letter has a small form that is no letter. -/
theorem toLower_eq_iff {c d : Char} (hd : d.isAlpha = false) : c.toLower = d ↔ c = d := by
  by_cases hc : c.isUpper = true
  · have hne (x : Char) (hx : x.isAlpha = true) : x ≠ d := by
      rintro rfl
      rw [hd] at hx
      cases hx
    have halpha : c.isAlpha = true := Bool.or_eq_true_iff.mpr (.inl hc)
    have halpha' : c.toLower.isAlpha = c.isAlpha := apply_toLower (by decide) c
    exact iff_of_false (hne _ (halpha'.trans halpha)) (hne c halpha)
  · rw [toLower_eq_self hc]

theorem head?_map_toLower_eq_iff {cs : List Char} {d : Char} (hd : d.isAlpha = false) :
    (cs.map Char.toLower).head? = some d ↔ cs.head? = some d := by
  cases cs with
  | nil => rfl
  | cons c rest => simpa using toLower_eq_iff hd

theorem toList_toLower (s : String) : s.toLower.toList = s.toList.map Char.toLower :=
  String.toList_map

-- ---------------------------------------------------------------------------
-- Lower-casing
-- ---------------------------------------------------------------------------

theorem startsCased_map_toLower (cs : List Char) :
    startsCased (cs.map Char.toLower) = startsCased cs := by
  have htransparent : isCaseTransparent ∘ Char.toLower = isCaseTransparent :=
    funext (apply_toLower (by decide))
  unfold startsCased
  rw [List.dropWhile_map, htransparent]
  cases cs.dropWhile isCaseTransparent with
  | nil => rfl
  | cons c rest => exact apply_toLower (f := isCased) (by decide) c

theorem lowercaseAt_toLower (before : List Char) (c : Char) (after : List Char) :
    lowercaseAt (before.map Char.toLower) c.toLower (after.map Char.toLower) =
      lowercaseAt before c after := by
  have hchar : lowercaseChar c.toLower = lowercaseChar c := apply_toLower (by decide) c
  have hsigma : c.toLower = 'Σ' ↔ c = 'Σ' := toLower_eq_iff (by decide)
  have hdotted : c.toLower = 'İ' ↔ c = 'İ' := toLower_eq_iff (by decide)
  simp only [lowercaseAt, startsCased_map_toLower, hchar, hsigma, hdotted]

theorem lowercaseFrom_map_toLower (before cs : List Char) :
    lowercaseFrom (before.map Char.toLower) (cs.map Char.toLower) = lowercaseFrom before cs := by
  induction cs generalizing before with
  | nil => rfl
  | cons c rest ih =>
    have hrest := ih (c :: before)
    rw [List.map_cons] at hrest
    rw [List.map_cons, lowercaseFrom, lowercaseFrom, lowercaseAt_toLower, hrest]

/-- The lower-casing of a text does not depend on the ASCII case of its letters. -/
theorem lowercase_toLower (s : String) : lowercase s.toLower = lowercase s := by
  rw [lowercase, lowercase, toList_toLower]
  exact congrArg String.ofList (lowercaseFrom_map_toLower [] s.toList)

end Text

-- ---------------------------------------------------------------------------
-- Forms of words
-- ---------------------------------------------------------------------------

namespace Literal

theorem isNameChars_map_toLower (cs : List Char) :
    isNameChars (cs.map Char.toLower) = isNameChars cs := by
  have hpart : isNamePart ∘ Char.toLower = isNamePart := funext (Text.apply_toLower (by decide))
  cases cs with
  | nil => rfl
  | cons c rest =>
    have hstart : isNameStart c.toLower = isNameStart c := Text.apply_toLower (by decide) c
    rw [List.map_cons, isNameChars, isNameChars, hstart, List.all_map, hpart]

/-- A text is an identifier in any case of its letters. -/
theorem isIdentifier_toLower (s : String) : isIdentifier s.toLower = isIdentifier s := by
  have hlast : (s.toList.map Char.toLower).getLast? = some '\n' ↔ s.toList.getLast? = some '\n' := by
    rw [← List.head?_reverse, ← List.head?_reverse, ← List.map_reverse]
    exact Text.head?_map_toLower_eq_iff (by decide)
  have hbreak : withoutFinalBreak (s.toList.map Char.toLower) =
      (withoutFinalBreak s.toList).map Char.toLower := by
    simp only [withoutFinalBreak, hlast, apply_ite (List.map Char.toLower), List.map_dropLast]
  rw [isIdentifier, isIdentifier, Text.toList_toLower, hbreak, isNameChars_map_toLower]

theorem splitSign_map_toLower (cs : List Char) :
    (splitSign (cs.map Char.toLower)).2 = (splitSign cs).2.map Char.toLower := by
  have hunsigned {c : Char} (rest : List Char) (hminus : c ≠ '-') (hplus : c ≠ '+') :
      splitSign (c :: rest) = (false, c :: rest) := by
    unfold splitSign
    split <;> simp_all
  cases cs with
  | nil => rfl
  | cons c rest =>
    by_cases hminus : c = '-'
    · subst hminus
      rfl
    · by_cases hplus : c = '+'
      · subst hplus
        rfl
      · have hminus' : c.toLower ≠ '-' := mt (Text.toLower_eq_iff (by decide)).mp hminus
        have hplus' : c.toLower ≠ '+' := mt (Text.toLower_eq_iff (by decide)).mp hplus
        rw [List.map_cons, hunsigned _ hminus' hplus', hunsigned rest hminus hplus]
        rfl

theorem startsNumeric_toLower (s : String) : startsNumeric s.toLower = startsNumeric s := by
  rw [startsNumeric, startsNumeric, Text.toList_toLower, splitSign_map_toLower]
  cases (splitSign s.toList).2 with
  | nil => rfl
  | cons c rest => exact Text.apply_toLower (f := Char.isDigit) (by decide) c

end Literal

theorem leadOf_eq_ite (word : String) :
    leadOf word = if word.toList.head? = some '#' then .numberSign
      else if word.toList.head? = some '.' then .point
      else if Literal.startsNumeric word then .number else .other := by
  unfold leadOf
  split
  next hword => simp [hword]
  next hword => simp [hword]
  next hsign hpoint =>
    have hhead {d : Char} (hd : ∀ rest, word.toList ≠ d :: rest) : word.toList.head? ≠ some d := by
      intro heq
      obtain ⟨rest, hword⟩ := List.head?_eq_some_iff.mp heq
      exact hd rest hword
    rw [if_neg (hhead hsign), if_neg (hhead hpoint)]

/-- What a word starts with is the same in any case of its letters. -/
theorem leadOf_toLower (word : String) : leadOf word.toLower = leadOf word := by
  simp only [leadOf_eq_ite, Text.toList_toLower, Literal.startsNumeric_toLower,
    Text.head?_map_toLower_eq_iff (show '#'.isAlpha = false by decide),
    Text.head?_map_toLower_eq_iff (show '.'.isAlpha = false by decide)]

end AsmHighlight
