-- SUMMARY: The forms of words, and what tells them apart.
import AsmHighlight.Proofs.Grammar.Extended
import AsmHighlight.Proofs.Literal.Integer

/-!
# The forms of words

A word means something where it stands (`KnownWord`) if it is a directive, a
label declaration at the start of its line, an integer literal, a word of the
grammar, or a name. What a word starts with decides which of these it can be
(`leadOf`): a number sign, a point, a number, or anything else. The forms never
share a lead, so a word of one form is never taken for another.
-/

namespace AsmHighlight

-- ---------------------------------------------------------------------------
-- Forms of words
-- ---------------------------------------------------------------------------

/-- The word declares a label: a point, the name, and a colon or none. -/
def IsDeclaration (word name : String) : Prop :=
  Literal.isNameChars name.toList = true ∧ (word = "." ++ name ∨ word = "." ++ name ++ ":")

/-- The word means something where it stands; `first` says that it is the first
    lexeme of its line. -/
inductive KnownWord (g : Grammar) (caseSensitive : Bool) (first : Prop) (word : String) : Prop where
  | directive {d : Directive} (hd : d ∈ g.directives) (hword : word = "#" ++ d.name)
  | label {name : String} (hfirst : first) (hname : IsDeclaration word name)
  | integer {v : Int} (hv : Literal.IsInteger word.toList v)
  | mnemonic (h : g.isMnemonic caseSensitive word = true)
  | register (h : g.isRegister caseSensitive word = true)
  | identifier (h : Literal.isNameChars word.toList = true)

/-- What a word starts with. -/
inductive Lead where
  | numberSign
  | point
  | number
  | other
  deriving DecidableEq, Repr

def leadOf (word : String) : Lead :=
  match word.toList with
  | '#' :: _ => .numberSign
  | '.' :: _ => .point
  | _ => if Literal.startsNumeric word then .number else .other

theorem leadOf_numberSign {word : String} {rest : List Char} (h : word.toList = '#' :: rest) :
    leadOf word = .numberSign := by
  simp only [leadOf, h]

theorem leadOf_point {word : String} {rest : List Char} (h : word.toList = '.' :: rest) :
    leadOf word = .point := by
  simp only [leadOf, h]

theorem head_of_leadOf_numberSign {word : String} (h : leadOf word = .numberSign) :
    ∃ rest, word.toList = '#' :: rest := by
  unfold leadOf at h
  split at h
  next rest hword => exact ⟨rest, hword⟩
  next => cases h
  next => split at h <;> cases h

theorem head_of_leadOf_point {word : String} (h : leadOf word = .point) :
    ∃ rest, word.toList = '.' :: rest := by
  unfold leadOf at h
  split at h
  next => cases h
  next rest hword => exact ⟨rest, hword⟩
  next => split at h <;> cases h

/-- What starts like a number starts with a sign or a digit. -/
theorem head_of_startsNumeric {word : String} (h : Literal.startsNumeric word = true) :
    ∃ c rest, word.toList = c :: rest ∧ (c = '-' ∨ c = '+' ∨ c.isDigit = true) := by
  unfold Literal.startsNumeric Literal.splitSign at h
  split at h
  next => cases h
  next c rest heq =>
    split at heq
    next body hword => exact ⟨'-', body, hword, .inl rfl⟩
    next body hword => exact ⟨'+', body, hword, .inr (.inl rfl)⟩
    next => exact ⟨c, rest, heq, .inr (.inr h)⟩

theorem leadOf_number {word : String} (h : Literal.startsNumeric word = true) :
    leadOf word = .number := by
  obtain ⟨c, rest, hword, hc⟩ := head_of_startsNumeric h
  unfold leadOf
  split
  next heq => rw [hword] at heq; cases heq; revert hc; decide
  next heq => rw [hword] at heq; cases heq; revert hc; decide
  next => rw [if_pos h]

/-- A lead other than `other` is a character that no name starts with and that
    lower-casing leaves alone. -/
theorem head_of_leadOf_ne_other {word : String} (h : leadOf word ≠ .other) :
    ∃ c rest, word.toList = c :: rest ∧ c.toNat < 128 ∧ c.isUpper = false ∧
      Literal.isNameStart c = false := by
  unfold leadOf at h
  split at h
  next rest hword => exact ⟨'#', rest, hword, by decide⟩
  next rest hword => exact ⟨'.', rest, hword, by decide⟩
  next =>
    split at h
    next hnum =>
      obtain ⟨c, rest, hword, hc⟩ := head_of_startsNumeric hnum
      refine ⟨c, rest, hword, ?_⟩
      rcases hc with rfl | rfl | hc
      · decide
      · decide
      · have hascii : c.toNat < 128 :=
          Literal.toNat_lt_of_isNamePart (by simp [Literal.isNamePart, hc])
        exact ⟨hascii, Text.forall_ascii
          (P := fun c => c.isDigit = true → c.isUpper = false ∧ Literal.isNameStart c = false)
          (by decide) hascii hc⟩
    next => exact absurd rfl h

theorem leadOf_of_isNameChars {word : String} (h : Literal.isNameChars word.toList = true) :
    leadOf word = .other := by
  by_contra hlead
  obtain ⟨c, rest, hword, _, _, hc⟩ := head_of_leadOf_ne_other hlead
  rw [hword] at h
  simp [Literal.isNameChars, hc] at h

theorem leadOf_of_isDirective {word name : String} (h : word = "#" ++ name) :
    leadOf word = .numberSign := by
  have hword : word.toList = '#' :: name.toList := by simp [h]
  exact leadOf_numberSign hword

theorem leadOf_of_isDeclaration {word name : String} (h : IsDeclaration word name) :
    leadOf word = .point := by
  have hword : ∃ rest, word.toList = '.' :: rest := by
    rcases h.2 with rfl | rfl
    · exact ⟨name.toList, by simp⟩
    · exact ⟨name.toList ++ [':'], by simp⟩
  obtain ⟨rest, hword⟩ := hword
  exact leadOf_point hword

/-- The words of a grammar start like names. -/
theorem leadOf_of_mem_grammar {g : Grammar} (hg : g.Sound) {caseSensitive : Bool} {word : String}
    (h : g.isMnemonic caseSensitive word = true ∨ g.isRegister caseSensitive word = true) :
    leadOf word = .other := by
  by_contra hlead
  obtain ⟨c, rest, hword, hascii, hupper, hc⟩ := head_of_leadOf_ne_other hlead
  have hunknown : g.isMnemonic caseSensitive word = false ∧
      g.isRegister caseSensitive word = false :=
    hg.unknown_of_head hword hascii hupper hc
  rw [hunknown.1, hunknown.2] at h
  simp at h

/-- A known word has the form that its lead announces. -/
theorem KnownWord.lead {g : Grammar} (hg : g.Sound) {caseSensitive : Bool} {first : Prop}
    {word : String} (h : KnownWord g caseSensitive first word) :
    match leadOf word with
    | .numberSign => ∃ d ∈ g.directives, word = "#" ++ d.name
    | .point => first ∧ ∃ name, IsDeclaration word name
    | .number => ∃ v, Literal.IsInteger word.toList v
    | .other => g.isMnemonic caseSensitive word = true ∨ g.isRegister caseSensitive word = true ∨
        Literal.isNameChars word.toList = true := by
  cases h with
  | directive hd hword => rw [leadOf_of_isDirective hword]; exact ⟨_, hd, hword⟩
  | label hfirst hname => rw [leadOf_of_isDeclaration hname]; exact ⟨hfirst, _, hname⟩
  | integer hv => rw [leadOf_number hv.startsNumeric]; exact ⟨_, hv⟩
  | mnemonic h => rw [leadOf_of_mem_grammar hg (.inl h)]; exact .inl h
  | register h => rw [leadOf_of_mem_grammar hg (.inr h)]; exact .inr (.inl h)
  | identifier h => rw [leadOf_of_isNameChars h]; exact .inr (.inr h)

-- ---------------------------------------------------------------------------
-- Label names
-- ---------------------------------------------------------------------------

theorem not_isNamePart_colon : Literal.isNamePart ':' = false := by decide

theorem mem_of_mem_labelName {word : String} {c : Char} (h : c ∈ (Literal.labelName word).toList) :
    c ∈ word.toList := by
  simp only [Literal.labelName, String.toList_ofList] at h
  split at h
  · exact List.mem_of_mem_drop (List.dropLast_subset _ h)
  · exact List.mem_of_mem_drop h

theorem isIdentifier_eq_isNameChars {word : String} (h : ∀ c ∈ word.toList, c ≠ '\n') :
    Literal.isIdentifier word = Literal.isNameChars word.toList := by
  rw [Literal.isIdentifier, Literal.withoutFinalBreak_eq_self h]

theorem isIdentifier_labelName {word : String} (h : ∀ c ∈ word.toList, c ≠ '\n') :
    Literal.isIdentifier (Literal.labelName word) =
      Literal.isNameChars (Literal.labelName word).toList :=
  isIdentifier_eq_isNameChars fun c hc => h c (mem_of_mem_labelName hc)

/-- The name in a declaration is what `labelName` finds. -/
theorem IsDeclaration.labelName_eq {word name : String} (h : IsDeclaration word name) :
    Literal.labelName word = name := by
  obtain ⟨hname, rfl | rfl⟩ := h
  · have hlast : name.toList.getLast? ≠ some ':' := by
      intro hlast
      have := Literal.isNamePart_of_isNameChars hname ':' (List.mem_of_getLast? hlast)
      rw [not_isNamePart_colon] at this
      cases this
    simp [Literal.labelName, hlast]
  · simp [Literal.labelName]

/-- A point and what `labelName` finds make a declaration, if that is a name. -/
theorem isDeclaration_labelName {word : String} {rest : List Char}
    (hword : word.toList = '.' :: rest)
    (hname : Literal.isNameChars (Literal.labelName word).toList = true) :
    IsDeclaration word (Literal.labelName word) := by
  refine ⟨hname, ?_⟩
  simp only [Literal.labelName, hword, List.drop_succ_cons, List.drop_zero]
  split
  next hlast =>
    right
    obtain ⟨front, rfl⟩ := List.getLast?_eq_some_iff.mp hlast
    rw [← String.toList_inj, hword]
    simp
  next =>
    left
    rw [← String.toList_inj, hword]
    simp

end AsmHighlight
