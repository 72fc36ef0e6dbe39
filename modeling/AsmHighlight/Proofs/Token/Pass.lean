-- SUMMARY: What classification decides about labels and jump operands, whatever the grammar.
import AsmHighlight.Proofs.Token.Run

/-!
# Classification with any grammar

The rules in `Classified` are those of a sound grammar. Some of what
classification decides does not depend on the grammar at all: what a word starts
with limits what it can be (`category_of_classify`), a label declaration is the
first word of its line (`eq_declaration_of_category`), and a name after a jump is
an identifier (`category_eq_identifier_iff_of_isJump`). `Pass` is what a run of
classification amounts to at each place, for these uses.
-/

namespace AsmHighlight

/-- The categories of valid words with this lead. -/
def Lead.categories : Lead → List Token.Category
  | .numberSign => [.directiveKeyword]
  | .point => [.labelDeclaration]
  | .number => [.integerLiteral]
  | .other => [.mnemonic, .register, .identifier]

theorem Lead.eq_point_of_mem_categories {lead : Lead}
    (h : Token.Category.labelDeclaration ∈ lead.categories) : lead = .point := by
  revert h
  cases lead <;> decide

theorem Lead.eq_numberSign_of_mem_categories {lead : Lead}
    (h : Token.Category.directiveKeyword ∈ lead.categories) : lead = .numberSign := by
  revert h
  cases lead <;> decide

theorem Lead.eq_other_of_mem_categories {lead : Lead}
    (h : Token.Category.identifier ∈ lead.categories) : lead = .other := by
  revert h
  cases lead <;> decide

theorem Lead.labelReference_notMem_categories (lead : Lead) :
    Token.Category.labelReference ∉ lead.categories := by
  cases lead <;> decide

namespace Token

-- ---------------------------------------------------------------------------
-- One lexeme
-- ---------------------------------------------------------------------------

section One

variable {g : Grammar} {caseSensitive : Bool} {previous : Option Token} {l : Lexeme} {t : Token}

theorem classify_word (hkind : l.kind = .word) :
    classify g caseSensitive previous l = classifyWord g caseSensitive previous l := by
  rw [classify, hkind]

/-- A token is invalid, or has a category that its lexeme allows. -/
theorem category_of_classify (h : classify g caseSensitive previous l = .ok t) :
    t.category = .invalid ∨
      (l.kind = .word ∧ t.category ∈ (leadOf l.text).categories) ∨
      (l.kind ≠ .word ∧ t.category ∈ [.comment, .punctuation, .stringLiteral]) := by
  unfold classify at h
  split at h
  case h_5 hkind =>
    rw [classifyWord_eq] at h
    split at h
    next hlead =>
      cases h
      rw [hlead, classifyDirective]
      split
      next => exact .inr (.inl ⟨hkind, List.mem_cons_self ..⟩)
      next => exact .inl rfl
    next hlead =>
      cases h
      simp only [hlead, classifyLabel]
      split
      next =>
        split
        next => exact .inr (.inl ⟨hkind, List.mem_cons_self ..⟩)
        next => exact .inl rfl
      next => exact .inl rfl
    next hlead =>
      obtain ⟨value, _, rfl⟩ := Except.map_eq_ok_iff.mp h
      rw [hlead]
      cases value with
      | none => exact .inl rfl
      | some v => exact .inr (.inl ⟨hkind, List.mem_cons_self ..⟩)
    next hlead =>
      cases h
      rw [hlead, classifyPlain]
      repeat' split
      all_goals simp [hkind, Lead.categories, ofLexeme, invalid]
  case h_4 =>
    cases h
    exact .inl rfl
  all_goals
    rename_i hkind
    cases h
    simp [hkind, ofLexeme]

/-- What is neither invalid nor of a category for other lexemes is a word, and its lead
    allows its category. -/
theorem mem_categories_of_classify (h : classify g caseSensitive previous l = .ok t)
    (hcat : t.category ∉ [.invalid, .comment, .punctuation, .stringLiteral]) :
    l.kind = .word ∧ t.category ∈ (leadOf l.text).categories := by
  rcases category_of_classify h with hinvalid | hword | ⟨_, hother⟩
  · exact absurd (hinvalid ▸ List.mem_cons_self ..) hcat
  · exact hword
  · exact absurd (List.mem_cons_of_mem _ hother) hcat

/-- Only resolution makes references. -/
theorem category_ne_labelReference (h : classify g caseSensitive previous l = .ok t) :
    t.category ≠ .labelReference := by
  intro hcat
  obtain ⟨_, hword⟩ := mem_categories_of_classify h (by rw [hcat]; decide)
  rw [hcat] at hword
  exact absurd hword (Lead.labelReference_notMem_categories _)

/-- A directive keyword is the name of a directive after a number sign, and carries it. -/
theorem eq_directive_of_category (h : classify g caseSensitive previous l = .ok t)
    (hcat : t.category = .directiveKeyword) :
    ∃ d, g.directive? d.name = some d ∧ l.text = "#" ++ d.name ∧
      t = ofLexeme .directiveKeyword l [.directive d.name] := by
  obtain ⟨hkind, hword⟩ := mem_categories_of_classify h (by rw [hcat]; decide)
  rw [hcat] at hword
  have hlead := Lead.eq_numberSign_of_mem_categories hword
  obtain ⟨rest, hsign⟩ := head_of_leadOf_numberSign hlead
  rw [classify_word hkind, classifyWord_eq, hlead] at h
  cases h
  unfold classifyDirective at hcat ⊢
  simp only [hsign, List.drop_succ_cons, List.drop_zero] at hcat ⊢
  split at hcat
  next d hd =>
    have hname : d.name = String.ofList rest := by simpa using List.find?_some hd
    refine ⟨d, by rw [hname, hd], ?_, by rw [hname]⟩
    rw [← String.toList_inj, hsign, hname]
    simp
  next => cases hcat

variable (hbreak : ∀ c ∈ l.text.toList, c ≠ '\n')

include hbreak

/-- A label declaration is the first word of its line and carries its name. -/
theorem eq_declaration_of_category (h : classify g caseSensitive previous l = .ok t)
    (hcat : t.category = .labelDeclaration) :
    l.kind = .word ∧ previous = none ∧
      ∃ name, IsDeclaration l.text name ∧ t = ofLexeme .labelDeclaration l [.name name] := by
  obtain ⟨hkind, hword⟩ := mem_categories_of_classify h (by rw [hcat]; decide)
  rw [hcat] at hword
  have hlead := Lead.eq_point_of_mem_categories hword
  obtain ⟨rest, hpoint⟩ := head_of_leadOf_point hlead
  rw [classify_word hkind, classifyWord_eq, hlead] at h
  cases h
  rcases classifyLabel_cases hbreak previous.isNone with
    ⟨hfirst, hname, heq⟩ | ⟨_, reason, hint, heq⟩
  · exact ⟨hkind, Option.isNone_iff_eq_none.mp hfirst, _, isDeclaration_labelName hpoint hname,
      heq⟩
  · rw [heq] at hcat
    cases hcat

/-- The first word of a line declares a label if it has the form of a declaration. -/
theorem eq_declaration_of_isDeclaration (h : classify g caseSensitive none l = .ok t)
    (hkind : l.kind = .word) {name : String} (hdecl : IsDeclaration l.text name) :
    t = ofLexeme .labelDeclaration l [.name name] := by
  rw [classify_word hkind, classifyWord_eq, leadOf_of_isDeclaration hdecl] at h
  cases h
  rcases classifyLabel_cases hbreak true with ⟨_, _, heq⟩ | ⟨hnot, _⟩
  · rw [Option.isNone_none, heq, hdecl.labelName_eq]
  · rw [hdecl.labelName_eq] at hnot
    exact absurd ⟨rfl, hdecl.1⟩ hnot

/-- After a jump, the identifiers are the words that are names. -/
theorem category_eq_identifier_iff_of_isJump (h : classify g caseSensitive previous l = .ok t)
    (hjump : previous.any (isJump g caseSensitive) = true) :
    t.category = .identifier ↔ l.kind = .word ∧ Literal.isNameChars l.text.toList = true := by
  constructor
  · intro hcat
    obtain ⟨hkind, hword⟩ := mem_categories_of_classify h (by rw [hcat]; decide)
    rw [hcat] at hword
    rw [classify_word hkind, classifyWord_eq, Lead.eq_other_of_mem_categories hword, hjump] at h
    cases h
    refine ⟨hkind, ?_⟩
    -- Without the shape of a name the word is looked up in the grammar or invalid.
    by_contra hname
    simp only [classifyPlain, isIdentifier_eq_isNameChars hbreak, eq_false_of_ne_true hname,
      Bool.and_false, Bool.false_eq_true, if_false] at hcat
    repeat' split at hcat
    all_goals cases hcat
  · rintro ⟨hkind, hname⟩
    rw [classify_word hkind, classifyWord_eq, leadOf_of_isNameChars hname, hjump] at h
    cases h
    rw [classifyPlain, isIdentifier_eq_isNameChars hbreak, hname]
    rfl

end One

-- ---------------------------------------------------------------------------
-- Whole documents
-- ---------------------------------------------------------------------------

/-- Each token is what classification makes of the lexeme at its place, in the light of
    the token before it. -/
structure Pass (g : Grammar) (caseSensitive : Bool) (lexemes : List Lexeme) (tokens : List Token) :
    Prop where
  map_span : tokens.map span = lexemes.map Lexeme.span
  classify_eq : ∀ (i : Nat) (l : Lexeme) (t : Token), lexemes[i]? = some l → tokens[i]? = some t →
    classify g caseSensitive (contextAt tokens i l.line) l = .ok t
  lines_sorted : lexemes.Pairwise fun l q => l.line ≤ q.line
  unbroken : ∀ l ∈ lexemes, ∀ c ∈ l.text.toList, c ≠ '\n'

theorem pass_of_classifyAll {g : Grammar} {caseSensitive : Bool} {sigil : Option Char}
    {source : String} {tokens : List Token}
    (h : classifyAll g caseSensitive (Lexeme.scan sigil source) = .ok tokens) :
    Pass g caseSensitive (Lexeme.scan sigil source) tokens where
  map_span := map_span_classifyFrom h
  classify_eq := (classifyFrom_eq_ok h).2
  lines_sorted := Lexeme.scan_lines_sorted sigil source
  unbroken := fun _ => Lexeme.ne_newline_of_mem_scan

/-- Where there is a lexeme there is a token of its text and place. -/
theorem exists_token_of_map_span {lexemes : List Lexeme} {tokens : List Token}
    (h : tokens.map span = lexemes.map Lexeme.span) {i : Nat} {l : Lexeme}
    (hl : lexemes[i]? = some l) : ∃ t, tokens[i]? = some t ∧ t.span = l.span := by
  have hi := congrArg (fun spans => spans[i]?) h
  simp only [List.getElem?_map, hl, Option.map_some] at hi
  obtain ⟨t, ht, hspan⟩ := Option.map_eq_some_iff.mp hi
  exact ⟨t, ht, hspan⟩

/-- Where there is a token there is a lexeme of its text and place. -/
theorem exists_lexeme_of_map_span {lexemes : List Lexeme} {tokens : List Token}
    (h : tokens.map span = lexemes.map Lexeme.span) {i : Nat} {t : Token}
    (ht : tokens[i]? = some t) : ∃ l, lexemes[i]? = some l ∧ t.span = l.span := by
  have hi := congrArg (fun spans => spans[i]?) h.symm
  simp only [List.getElem?_map, ht, Option.map_some] at hi
  obtain ⟨l, hl, hspan⟩ := Option.map_eq_some_iff.mp hi
  exact ⟨l, hl, hspan.symm⟩

theorem line_eq_of_span_eq {l : Lexeme} {t : Token} (h : t.span = l.span) : t.line = l.line :=
  congrArg (fun s => s.range.line) h

namespace Pass

variable {g : Grammar} {caseSensitive : Bool} {lexemes : List Lexeme} {tokens : List Token}
  (h : Pass g caseSensitive lexemes tokens)

include h

theorem exists_token {i : Nat} {l : Lexeme} (hl : lexemes[i]? = some l) :
    ∃ t, tokens[i]? = some t ∧ classify g caseSensitive (contextAt tokens i l.line) l = .ok t := by
  obtain ⟨t, ht, _⟩ := exists_token_of_map_span h.map_span hl
  exact ⟨t, ht, h.classify_eq i l t hl ht⟩

theorem exists_lexeme {i : Nat} {t : Token} (ht : tokens[i]? = some t) :
    ∃ l, lexemes[i]? = some l ∧ classify g caseSensitive (contextAt tokens i l.line) l = .ok t := by
  obtain ⟨l, hl, _⟩ := exists_lexeme_of_map_span h.map_span ht
  exact ⟨l, hl, h.classify_eq i l t hl ht⟩

/-- With a sound grammar a pass follows the rules. -/
theorem run (hg : g.Sound) : Run g caseSensitive lexemes tokens := by
  refine ⟨?_, ?_, h.lines_sorted⟩
  · have hlength := congrArg List.length h.map_span
    rwa [List.length_map, List.length_map] at hlength
  · intro i l t hl ht
    exact classify_classified hg (h.unbroken l (List.mem_of_getElem? hl)) (h.classify_eq i l t hl ht)

theorem contextAt_eq_none_iff {i : Nat} {l : Lexeme} (hl : lexemes[i]? = some l) :
    contextAt tokens i l.line = none ↔ Lexeme.FirstOnLine lexemes i l.line := by
  refine contextAt_eq_none_iff_of_lines_sorted h.lines_sorted ?_ hl
  intro j p hp
  obtain ⟨t, ht, hspan⟩ := exists_token_of_map_span h.map_span hp
  exact ⟨t, ht, line_eq_of_span_eq hspan⟩

end Pass

end Token

end AsmHighlight
