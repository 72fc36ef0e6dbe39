-- SUMMARY: The tokens that a stream presents, and which of them can be shown.
import AsmHighlight.Proofs.Label.Resolved
import AsmHighlight.Proofs.Stream.Written
import AsmHighlight.Token.Listing

/-!
# Presented tokens

When all steps are done, a token is a reference, an annotated directive, a literal
with its value, an invalid token with a reason, or a token that speaks for itself
(`Presented`). Each carries what its line in a listing looks up, and the only
integer that it carries besides places and widths is the value of a literal. So
a token is listed, and written as JSON, unless that value is too long
(`Presented.exists_listing`, `Presented.hasLongValue_iff`).
-/

namespace AsmHighlight.Token

/-- The token is a literal for an integer that has no decimal text within the bound. -/
def IsLongLiteral (t : Token) : Prop :=
  t.category = .integerLiteral ∧
    ∃ v, Literal.IsInteger t.text.toList v ∧ 10 ^ Decimal.maxDigits ≤ v.natAbs

/-- The categories of tokens that a listing has no note on. -/
def plainCategories : List Category :=
  [.mnemonic, .register, .stringLiteral, .labelDeclaration, .identifier, .comment, .punctuation]

/-- What the steps make of a token, with the directives of a grammar and the labels of a
    document. -/
inductive Presented (g : Grammar) (labels : Label.Table) : Token → Prop where
  | reference (c : Token) : Presented g labels (Label.reference labels c)
  | directive {d : Directive} (hd : d ∈ g.directives) {c : Token}
      (hcat : c.category = .directiveKeyword) : Presented g labels (Directive.annotate d c)
  | integer {t : Token} {v : Int} (hcat : t.category = .integerLiteral)
      (hv : Literal.IsInteger t.text.toList v) (hattributes : t.attributes = [.integerValue v]) :
      Presented g labels t
  | invalid {t : Token} {reason : String} {hint : Option String} (hcat : t.category = .invalid)
      (hattributes : t.attributes = .reason reason :: hint.toList.map .hint) :
      Presented g labels t
  | plain {t : Token} (hcat : t.category ∈ plainCategories)
      (hattributes : ∀ a ∈ t.attributes, (∃ s, a = .name s) ∨ ∃ s, a = .stringValue s) :
      Presented g labels t

section Classified

variable {g : Grammar} {caseSensitive : Bool} {previous : Option Token} {l : Lexeme} {c : Token}

theorem presented_plain {category : Category} (hcat : category ∈ plainCategories)
    {attributes : List Attribute}
    (hattributes : ∀ a ∈ attributes, (∃ s, a = .name s) ∨ ∃ s, a = .stringValue s)
    (labels : Label.Table) :
    Presented g labels (Directive.mark g (ofLexeme category l attributes)) := by
  have hother : category ≠ .directiveKeyword := by
    rintro rfl
    exact absurd hcat (by decide)
  rw [Directive.mark_of_category_ne hother]
  exact .plain hcat hattributes

/-- What classification leaves is presented once the directives are annotated. -/
theorem Classified.presented (h : Classified g caseSensitive previous l c) (hg : g.Sound)
    (labels : Label.Table) : Presented g labels (Directive.mark g c) := by
  have hother {category : Category} {attributes : List Attribute}
      (hcat : category ≠ .directiveKeyword) :
      Directive.mark g (ofLexeme category l attributes) = ofLexeme category l attributes :=
    Directive.mark_of_category_ne hcat
  cases h with
  | @directive _ d hd _ =>
    have hfound : Directive.ofToken? g (ofLexeme .directiveKeyword l [.directive d.name]) =
        some d := hg.directive?_eq_some_iff.mpr ⟨hd, rfl⟩
    rw [Directive.mark, hfound, Option.elim_some]
    exact .directive hd rfl
  | integer _ hv =>
    rw [hother (by decide)]
    exact .integer rfl hv rfl
  | unterminated _ reason =>
    rw [invalid, hother (by decide)]
    exact .invalid rfl rfl
  | malformed _ reason hint _ =>
    rw [invalid, hother (by decide)]
    exact .invalid rfl rfl
  | string | label => exact presented_plain (by decide) (by simp) labels
  | comment | punctuation | operand | mnemonic | register | identifier =>
    exact presented_plain (by decide) (by simp) labels

end Classified

namespace Presented

variable {g : Grammar} {labels : Label.Table} {t : Token}

-- ---------------------------------------------------------------------------
-- Listings
-- ---------------------------------------------------------------------------

/-- A token that is no long literal has a note. -/
theorem exists_note (h : Presented g labels t) (hshort : ¬ t.IsLongLiteral) :
    ∃ note, t.note = .ok note := by
  cases h with
  | reference c =>
    rw [note, Label.category_reference, Label.isResolved_reference, Label.declaration?_reference]
    cases labels.lookup c.text with
    | none => exact ⟨_, rfl⟩
    | some label => exact ⟨_, rfl⟩
  | @directive d hd c hcat =>
    have hnote : (Directive.annotate d c).note = (Directive.annotate d c).operandNote := by
      rw [note]
      simp only [Directive.annotate, hcat]
    have hkind : (Directive.annotate d c).literalKind? = some d.literalKind := rfl
    rw [hnote, operandNote, hkind]
    split
    next => exact ⟨_, rfl⟩
    next => exact ⟨_, rfl⟩
  | @integer _ v hcat hv hattributes =>
    have hvalue : t.integerValue? = some v := by rw [integerValue?, hattributes]; rfl
    have hwrite : Decimal.isOverlong v = false := by
      refine Decimal.isOverlong_eq_false (Nat.lt_of_not_le fun hlong => ?_)
      exact hshort ⟨hcat, v, hv, hlong⟩
    refine ⟨s!"  = {Decimal.text v}", ?_⟩
    simp [note, hcat, hvalue, require, Decimal.write, hwrite, bind, Except.bind, pure, Except.pure]
  | @invalid _ reason hint hcat hattributes =>
    have hreason : t.reason? = some reason := by rw [reason?, hattributes]; rfl
    rw [note, hcat, hreason]
    exact ⟨_, rfl⟩
  | plain hcat _ =>
    rw [note]
    split
    all_goals first
      | exact ⟨_, rfl⟩
      | next heq => rw [heq] at hcat; exact absurd hcat (by decide)

theorem exists_listing (h : Presented g labels t) (hshort : ¬ t.IsLongLiteral) :
    ∃ line, t.listing = .ok line := by
  obtain ⟨note, hnote⟩ := h.exists_note hshort
  rw [listing, hnote]
  exact ⟨_, rfl⟩

/-- A long literal carries its value. -/
theorem exists_value (h : Presented g labels t) (hlong : t.IsLongLiteral) :
    ∃ v, t.attributes = [.integerValue v] ∧ Decimal.isOverlong v = true := by
  obtain ⟨hliteral, v, hv, hlong⟩ := hlong
  cases h with
  | integer _ hv' hattributes =>
    cases hv.unique hv'
    exact ⟨v, hattributes, Decimal.isOverlong_iff.mpr hlong⟩
  | reference c => rw [Label.category_reference] at hliteral; cases hliteral
  | directive _ hcat => cases hcat.symm.trans hliteral
  | invalid hcat _ => cases hcat.symm.trans hliteral
  | plain hcat _ => rw [hliteral] at hcat; exact absurd hcat (by decide)

theorem listing_eq_error (h : Presented g labels t) (hlong : t.IsLongLiteral) :
    t.listing = .error (.overlong .writing) := by
  obtain ⟨v, hattributes, hv⟩ := h.exists_value hlong
  have hvalue : t.integerValue? = some v := by rw [integerValue?, hattributes]; rfl
  have hnote : t.note = .error (.overlong .writing) := by
    simp [note, hlong.1, hvalue, require, Decimal.write, hv, bind, Except.bind]
  rw [listing, hnote]
  rfl

-- ---------------------------------------------------------------------------
-- Integers
-- ---------------------------------------------------------------------------

/-- The only integers that can be too long are values of literals. -/
theorem hasLongValue_iff (h : Presented g labels t) : t.HasLongValue ↔ t.IsLongLiteral := by
  constructor
  · rintro ⟨v, hmem, hv⟩
    cases h with
    | reference c =>
      unfold Label.reference at hmem
      split at hmem <;> simp at hmem
    | directive _ _ => simp [Directive.annotate] at hmem
    | integer hcat hv' hattributes =>
      rw [hattributes, List.mem_singleton] at hmem
      cases hmem
      exact ⟨hcat, v, hv', Decimal.isOverlong_iff.mp hv⟩
    | invalid _ hattributes =>
      rw [hattributes] at hmem
      simp at hmem
    | plain _ hattributes => rcases hattributes _ hmem with ⟨_, hs⟩ | ⟨_, hs⟩ <;> cases hs
  · intro hlong
    obtain ⟨v, hattributes, hv⟩ := h.exists_value hlong
    exact ⟨v, hattributes ▸ List.mem_singleton_self _, hv⟩

/-- The places and widths that a token carries are those of labels and directives. -/
theorem within (h : Presented g labels t) {n : Nat} (hrange : t.range.Within n)
    (hlabels : ∀ label ∈ labels, label.range.Within n)
    (hbits : ∀ d ∈ g.directives, ∀ bits ∈ d.bitWidth, bits ≤ n) : t.Within n := by
  refine ⟨hrange, ?_⟩
  cases h with
  | reference c =>
    unfold Label.reference
    split
    next label hlookup =>
      simp [Attribute.Within, hlabels label (List.mem_of_find?_eq_some hlookup)]
    next => simp [Attribute.Within]
  | directive hd _ =>
    simp only [Directive.annotate, List.forall_mem_cons]
    exact ⟨trivial, trivial, hbits _ hd, by simp⟩
  | integer _ _ hattributes =>
    rw [hattributes]
    simp [Attribute.Within]
  | invalid _ hattributes =>
    rw [hattributes]
    simp [Attribute.Within]
  | plain _ hattributes =>
    intro a ha
    rcases hattributes a ha with ⟨_, rfl⟩ | ⟨_, rfl⟩ <;> trivial

end Presented

end AsmHighlight.Token
