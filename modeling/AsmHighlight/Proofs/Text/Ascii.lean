-- SUMMARY: ASCII characters: facts checked one by one, and what lower-casing leaves as it is.
import AsmHighlight.Literal.Name
import AsmHighlight.Text.Lowercase

/-!
# ASCII characters

The characters of names and numbers are ASCII, so a fact about them is a check
of 128 cases (`forall_ascii`). Lower-casing leaves every ASCII character alone
that is no capital letter (`lowercaseAt_eq_self`), hence every name in lower
case (`lowercase_eq_self_of_isTableName`).
-/

namespace AsmHighlight.Text

/-- A property of the ASCII characters, checked one by one. -/
theorem forall_ascii {P : Char → Prop} (h : ∀ n < 128, P (Char.ofNat n)) {c : Char}
    (hc : c.toNat < 128) : P c := by
  have := h c.toNat hc
  rwa [Char.ofNat_toNat] at this

-- ---------------------------------------------------------------------------
-- Lower-casing
-- ---------------------------------------------------------------------------

theorem lowercaseChar_eq_self {c : Char} (hc : c.toNat < 128) (hu : c.isUpper = false) :
    lowercaseChar c = c :=
  forall_ascii (P := fun c => c.isUpper = false → lowercaseChar c = c) (by decide) hc hu

/-- Lower-casing leaves an ASCII character that is no capital as it is. -/
theorem lowercaseAt_eq_self {c : Char} (hc : c.toNat < 128) (hu : c.isUpper = false)
    (before after : List Char) : lowercaseAt before c after = [c] := by
  have hsigma : c ≠ 'Σ' := by rintro rfl; revert hc; decide
  have hdotted : c ≠ 'İ' := by rintro rfl; revert hc; decide
  rw [lowercaseAt, if_neg hsigma, if_neg hdotted, lowercaseChar_eq_self hc hu]

theorem lowercaseFrom_eq_self {cs : List Char}
    (h : ∀ c ∈ cs, c.toNat < 128 ∧ c.isUpper = false) (before : List Char) :
    lowercaseFrom before cs = cs := by
  induction cs generalizing before with
  | nil => rfl
  | cons c rest ih =>
    obtain ⟨hc, hu⟩ := h c (List.mem_cons_self ..)
    rw [lowercaseFrom, lowercaseAt_eq_self hc hu, ih fun x hx => h x (List.mem_cons_of_mem _ hx)]
    rfl

/-- A word in lower case starts with the character that the word starts with, when
    that is ASCII and no capital. -/
theorem head?_lowercase {s : String} {c : Char} {rest : List Char} (hs : s.toList = c :: rest)
    (hc : c.toNat < 128) (hu : c.isUpper = false) : (lowercase s).toList.head? = some c := by
  simp [lowercase, hs, lowercaseFrom, lowercaseAt_eq_self hc hu]

end AsmHighlight.Text

-- ---------------------------------------------------------------------------
-- Names
-- ---------------------------------------------------------------------------

namespace AsmHighlight.Literal

theorem toNat_lt_of_isNamePart {c : Char} (h : isNamePart c = true) : c.toNat < 128 := by
  delta isNamePart Char.isAlpha Char.isUpper Char.isLower Char.isDigit at h
  simp only [Bool.or_eq_true, Bool.and_eq_true, decide_eq_true_eq, UInt32.le_iff_toNat_le,
    ge_iff_le, beq_iff_eq] at h
  rcases h with ((⟨_, h⟩ | ⟨_, h⟩) | ⟨_, h⟩) | rfl
  · exact Nat.lt_of_le_of_lt h (by decide)
  · exact Nat.lt_of_le_of_lt h (by decide)
  · exact Nat.lt_of_le_of_lt h (by decide)
  · decide

theorem isNamePart_of_isNameStart {c : Char} (h : isNameStart c = true) :
    isNamePart c = true := by
  simp only [isNameStart, isNamePart, Bool.or_eq_true] at h ⊢
  rcases h with h | h
  · exact .inl (.inl h)
  · exact .inr h

theorem isNamePart_of_isNameChars {cs : List Char} (h : isNameChars cs = true) :
    ∀ c ∈ cs, isNamePart c = true := by
  cases cs with
  | nil => simp
  | cons c rest =>
    simp only [isNameChars, Bool.and_eq_true, List.all_eq_true] at h
    intro x hx
    rcases List.mem_cons.mp hx with rfl | hx
    · exact isNamePart_of_isNameStart h.1
    · exact h.2 x hx

/-- Without a final line break the tolerance for one makes no difference. -/
theorem withoutFinalBreak_of_getLast?_ne {cs : List Char} (h : cs.getLast? ≠ some '\n') :
    withoutFinalBreak cs = cs :=
  if_neg h

theorem getLast?_ne_newline {cs : List Char} (h : ∀ c ∈ cs, c ≠ '\n') :
    cs.getLast? ≠ some '\n' :=
  fun hlast => h '\n' (List.mem_of_getLast? hlast) rfl

theorem withoutFinalBreak_eq_self {cs : List Char} (h : ∀ c ∈ cs, c ≠ '\n') :
    withoutFinalBreak cs = cs :=
  withoutFinalBreak_of_getLast?_ne (getLast?_ne_newline h)

theorem mem_withoutFinalBreak {cs : List Char} {c : Char} (h : c ∈ cs) :
    c ∈ withoutFinalBreak cs ∨ c = '\n' := by
  unfold withoutFinalBreak
  split
  next hlast =>
    obtain ⟨front, rfl⟩ := List.getLast?_eq_some_iff.mp hlast
    simpa using h
  next => exact .inl h

/-- A name in lower case is its own lower-casing. -/
theorem lowercase_eq_self_of_isTableName {s : String} (h : isTableName s = true) :
    Text.lowercase s = s := by
  simp only [isTableName, isIdentifier, Bool.and_eq_true, Bool.not_eq_true'] at h
  obtain ⟨hname, hupper⟩ := h
  rw [Text.lowercase, Text.lowercaseFrom_eq_self, String.ofList_toList]
  intro c hc
  constructor
  · rcases mem_withoutFinalBreak hc with hc | rfl
    · exact toNat_lt_of_isNamePart (isNamePart_of_isNameChars hname c hc)
    · decide
  · simpa using List.any_eq_false.mp hupper c hc

/-- Names hold no line break. -/
theorem ne_newline_of_isNameChars {cs : List Char} (h : isNameChars cs = true) :
    ∀ c ∈ cs, c ≠ '\n' := by
  rintro _ hc rfl
  exact absurd (isNamePart_of_isNameChars h '\n' hc) (by decide)

/-- A final line break is all that tells an accepted name from a name. -/
theorem isNameChars_iff_of_isTableName {s : String} (h : isTableName s = true) :
    isNameChars s.toList = true ↔ s.toList.getLast? ≠ some '\n' := by
  refine ⟨fun hname => getLast?_ne_newline (ne_newline_of_isNameChars hname), fun hend => ?_⟩
  simp only [isTableName, isIdentifier, Bool.and_eq_true] at h
  rw [← withoutFinalBreak_of_getLast?_ne hend]
  exact h.1

/-- A name in lower case starts like a name. -/
theorem head?_of_isTableName {s : String} (h : isTableName s = true) :
    ∃ c, s.toList.head? = some c ∧ isNameStart c = true := by
  simp only [isTableName, isIdentifier, Bool.and_eq_true] at h
  have hname := h.1
  unfold withoutFinalBreak at hname
  cases hs : s.toList with
  | nil => simp [hs, isNameChars] at hname
  | cons c rest =>
    refine ⟨c, rfl, ?_⟩
    cases rest with
    | nil =>
      split at hname
      · simp [hs, isNameChars] at hname
      · simpa [hs, isNameChars] using hname
    | cons d rest =>
      split at hname
      all_goals
        simp only [hs, List.dropLast, isNameChars, Bool.and_eq_true] at hname
        exact hname.1

end AsmHighlight.Literal
