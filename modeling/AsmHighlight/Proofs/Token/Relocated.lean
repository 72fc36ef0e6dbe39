-- SUMMARY: Classification depends on places through lines only.
import AsmHighlight.Proofs.Except
import AsmHighlight.Proofs.Relocation
import AsmHighlight.Proofs.Token.Classified

/-!
# Classification after a relocation

The rules of classification look at the text of a word and at the token before
it on its line, so a relocated document has the relocated tokens
(`classifyFrom_relocate`), and what is invalid is reported where it went
(`malformed?_relocate`).

A line knows nothing of the lines before it: two parts of a document that share
no line are classified on their own (`classifyFrom_append`).
-/

namespace AsmHighlight.Token

variable {g : Grammar} {caseSensitive : Bool}

-- ---------------------------------------------------------------------------
-- Relocation
-- ---------------------------------------------------------------------------

section Relocate

variable (ρ : Relocation)

theorem relocate_ofLexeme (category : Category) (l : Lexeme) (attributes : List Attribute) :
    (ofLexeme category l attributes).relocate ρ =
      ofLexeme category (l.relocate ρ) (attributes.map (Attribute.relocate ρ)) := rfl

theorem relocate_invalid (l : Lexeme) (reason : String) (hint : Option String) :
    (invalid l reason hint).relocate ρ = invalid (l.relocate ρ) reason hint := by
  cases hint with
  | none => rfl
  | some hint => rfl

theorem classifyDirective_relocate (l : Lexeme) :
    classifyDirective g (l.relocate ρ) = (classifyDirective g l).relocate ρ := by
  simp only [classifyDirective, Lexeme.text_relocate]
  split
  next => rfl
  next => exact (relocate_invalid ρ l _ _).symm

theorem classifyLabel_relocate (first : Bool) (l : Lexeme) :
    classifyLabel first (l.relocate ρ) = (classifyLabel first l).relocate ρ := by
  simp only [classifyLabel, Lexeme.text_relocate, apply_ite (relocate ρ), relocate_ofLexeme,
    relocate_invalid]
  rfl

theorem classifyNumber_relocate (l : Lexeme) :
    classifyNumber (l.relocate ρ) = (classifyNumber l).map (relocate ρ) := by
  simp only [classifyNumber, Lexeme.text_relocate]
  cases Literal.parseInteger l.text with
  | error cause => rfl
  | ok value =>
    cases value with
    | none => exact congrArg Except.ok (relocate_invalid ρ l _ _).symm
    | some v => rfl

theorem classifyPlain_relocate (afterJump : Bool) (l : Lexeme) :
    classifyPlain g caseSensitive afterJump (l.relocate ρ) =
      (classifyPlain g caseSensitive afterJump l).relocate ρ := by
  simp only [classifyPlain, Lexeme.text_relocate, apply_ite (relocate ρ), relocate_ofLexeme,
    relocate_invalid]
  rfl

theorem classifyWord_relocate (previous : Option Token) (l : Lexeme) :
    classifyWord g caseSensitive (previous.map (relocate ρ)) (l.relocate ρ) =
      (classifyWord g caseSensitive previous l).map (relocate ρ) := by
  simp only [classifyWord, Lexeme.text_relocate, Option.isNone_map]
  split
  next => exact congrArg Except.ok (classifyDirective_relocate ρ l)
  next => exact congrArg Except.ok (classifyLabel_relocate ρ _ l)
  next =>
    rw [apply_ite (Except.map (relocate ρ)), classifyNumber_relocate, classifyPlain_relocate,
      Option.any_map]
    rfl

theorem classify_relocate (previous : Option Token) (l : Lexeme) :
    classify g caseSensitive (previous.map (relocate ρ)) (l.relocate ρ) =
      (classify g caseSensitive previous l).map (relocate ρ) := by
  unfold classify
  simp only [Lexeme.kind_relocate, Lexeme.text_relocate, Lexeme.error_relocate]
  cases l.kind with
  | word => exact classifyWord_relocate ρ previous l
  | invalid => exact congrArg Except.ok (relocate_invalid ρ l _ _).symm
  | string | comment | punctuation => rfl

/-- The token before a lexeme on its line is the same after a relocation. -/
theorem filter_line_relocate (previous : Option Token) (l : Lexeme) :
    ((previous.map (relocate ρ)).filter fun t => t.line = (l.relocate ρ).line) =
      (previous.filter fun t => t.line = l.line).map (relocate ρ) := by
  cases previous with
  | none => rfl
  | some t =>
    have hline : (t.relocate ρ).line = (l.relocate ρ).line ↔ t.line = l.line := ρ.line_start _ _
    by_cases h : t.line = l.line
    · simp [Option.filter, hline, h]
    · simp [Option.filter, hline, h]

/-- The lexemes of a relocated document become the relocated tokens. -/
theorem classifyFrom_relocate (previous : Option Token) (lexemes : List Lexeme) :
    classifyFrom g caseSensitive (previous.map (relocate ρ)) (lexemes.map (Lexeme.relocate ρ)) =
      (classifyFrom g caseSensitive previous lexemes).map (List.map (relocate ρ)) := by
  induction lexemes generalizing previous with
  | nil => rfl
  | cons l rest ih =>
    simp only [List.map_cons, classifyFrom, filter_line_relocate, classify_relocate]
    cases classify g caseSensitive (previous.filter fun t => t.line = l.line) l with
    | error cause => rfl
    | ok token =>
      have hrest := ih (some token)
      simp only [Option.map_some] at hrest
      simp only [Except.map, bind, Except.bind, hrest]
      cases classifyFrom g caseSensitive (some token) rest with
      | error cause => rfl
      | ok tokens => rfl

theorem malformed?_relocate (t : Token) :
    (t.relocate ρ).malformed? = t.malformed?.map (Diagnostic.relocate ρ) := by
  unfold malformed?
  rw [reason?_relocate, hint?_relocate, category_relocate]
  split
  next => rfl
  next => rfl

theorem filterMap_malformed?_relocate (tokens : List Token) :
    (tokens.map (relocate ρ)).filterMap malformed? =
      (tokens.filterMap malformed?).map (Diagnostic.relocate ρ) := by
  rw [List.filterMap_map, List.map_filterMap]
  exact List.filterMap_congr fun t _ => malformed?_relocate ρ t

end Relocate

-- ---------------------------------------------------------------------------
-- Parts that share no line
-- ---------------------------------------------------------------------------

/-- What comes before, on other lines, does not matter. -/
theorem classifyFrom_of_lines_ne {previous : Option Token} {lexemes : List Lexeme}
    (h : ∀ t ∈ previous, ∀ l ∈ lexemes, t.line ≠ l.line) :
    classifyFrom g caseSensitive previous lexemes = classifyFrom g caseSensitive none lexemes := by
  cases lexemes with
  | nil => rfl
  | cons l rest =>
    have hnone : (previous.filter fun t => t.line = l.line) = none := by
      rw [Option.filter_eq_none_iff]
      intro t ht
      simpa using h t ht l (List.mem_cons_self ..)
    rw [classifyFrom, classifyFrom, hnone]
    rfl

theorem classifyFrom_append {previous : Option Token} {lexemes more : List Lexeme}
    (hprevious : ∀ t ∈ previous, ∀ q ∈ more, t.line ≠ q.line)
    (h : ∀ l ∈ lexemes, ∀ q ∈ more, l.line ≠ q.line) :
    classifyFrom g caseSensitive previous (lexemes ++ more) = do
      let tokens ← classifyFrom g caseSensitive previous lexemes
      let others ← classifyFrom g caseSensitive none more
      return tokens ++ others := by
  induction lexemes generalizing previous with
  | nil =>
    rw [List.nil_append, classifyFrom_of_lines_ne hprevious]
    cases classifyFrom g caseSensitive none more with
    | error cause => rfl
    | ok others => rfl
  | cons l rest ih =>
    rw [List.cons_append, classifyFrom, classifyFrom]
    cases htoken : classify g caseSensitive (previous.filter fun t => t.line = l.line) l with
    | error cause => rfl
    | ok token =>
      have hline : token.line = l.line :=
        congrArg (fun s => s.range.line) (span_of_classify htoken)
      have hrest := @ih (some token) (by
        rintro t ⟨⟩ q hq
        rw [hline]
        exact h l (List.mem_cons_self ..) q hq) fun m hm => h m (List.mem_cons_of_mem l hm)
      simp only [bind, Except.bind, hrest]
      cases classifyFrom g caseSensitive (some token) rest with
      | error cause => rfl
      | ok tokens =>
        cases classifyFrom g caseSensitive none more with
        | error cause => rfl
        | ok others => rfl

end AsmHighlight.Token
