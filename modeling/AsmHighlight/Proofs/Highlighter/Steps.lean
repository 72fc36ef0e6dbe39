-- SUMMARY: The steps of highlighting a document, and the tiling that they keep.
import AsmHighlight.Highlighter
import AsmHighlight.Proofs.Directive.Checked
import AsmHighlight.Proofs.Label.Resolved
import AsmHighlight.Proofs.Stream.Sorted
import Mathlib.Data.List.Pairwise

/-!
# The steps of a highlighter

A document is highlighted exactly when each of the steps returns
(`highlight_eq_ok_iff`), and what they returned is kept in `Steps`. No step
moves a token or changes its text, and the tokens come in order already, so the
stream holds the lexemes of the document place by place (`Steps.map_span`).
-/

namespace AsmHighlight

/-- Tokens that tile a document are in order. -/
theorem Tiles.pairwise_upTo {source : String} {tokens : List Token}
    (h : Tiles source (tokens.map Token.span)) : tokens.Pairwise Token.UpTo :=
  (List.pairwise_map.mp h.start_lt).imp fun hlt => .inl hlt

/-- There is nothing to do for a sort of tokens that tile a document. -/
theorem Stream.sortTokens_eq_self {source : String} {tokens : List Token}
    (h : Tiles source (tokens.map Token.span)) : sortTokens tokens = tokens :=
  List.mergeSort_of_pairwise (h.pairwise_upTo.imp tokenLe_iff.mpr)

namespace Highlighter

/-- A highlighter with the built-in grammar and the default settings. -/
def standard : Highlighter where
  policy := ⟨';', by decide, false, none, .error⟩

/-- The tokens with references resolved, and what there is to say on them. -/
def resolution (h : Highlighter) (labels : Label.Table) (tokens : List Token) :
    List Token × List Diagnostic :=
  Label.resolve h.grammar h.policy.caseSensitive h.policy.severity labels tokens

/-- What each step makes of a document that is highlighted. -/
structure Steps (h : Highlighter) (source : String) where
  tokens : List Token
  labels : Label.Table
  duplicates : List Diagnostic
  checked : List Token
  found : List Diagnostic
  classified_eq : h.classified source = .ok tokens
  collect_eq : Label.collect tokens = .ok (labels, duplicates)
  check_eq : Directive.check h.grammar (h.resolution labels tokens).1 = .ok (checked, found)

variable {h : Highlighter} {source : String} {version : Json}

/-- All that the steps have to say, in the order of the steps. -/
def Steps.diagnostics (steps : Steps h source) : List Diagnostic :=
  steps.tokens.filterMap Token.malformed? ++ steps.duplicates ++
    (h.resolution steps.labels steps.tokens).2 ++ steps.found

/-- The stream that comes of the steps. -/
def Steps.stream (steps : Steps h source) (version : Json) : Stream :=
  Stream.emit h.cap version steps.checked steps.diagnostics steps.labels

/-- Classification names every declaration, so collecting does not fail. -/
theorem exists_collect_eq_ok {tokens : List Token}
    (hclassified : h.classified source = .ok tokens) :
    ∃ collected, Label.collect tokens = .ok collected := by
  have hpass := Token.pass_of_classifyAll hclassified
  refine Label.exists_collectFrom_eq_ok [] fun t ht hcat => ?_
  obtain ⟨i, hi⟩ := List.mem_iff_getElem?.mp ht
  obtain ⟨l, hl, hclass⟩ := hpass.exists_lexeme hi
  have hbreak := hpass.unbroken l (List.mem_of_getElem? hl)
  obtain ⟨_, _, name, _, rfl⟩ := Token.eq_declaration_of_category hbreak hclass hcat
  exact ⟨name, rfl⟩

/-- Highlighting is one step after the other. -/
theorem highlight_eq (h : Highlighter) (source : String) (version : Json) :
    h.highlight source version = do
      let tokens ← (h.classified source).mapError .overlong
      let collected ← Label.collect tokens
      let resolved := h.resolution collected.1 tokens
      let checked ← Directive.check h.grammar resolved.1
      return Stream.emit h.cap version checked.1
        (tokens.filterMap Token.malformed? ++ collected.2 ++ resolved.2 ++ checked.2)
        collected.1 := by
  unfold highlight run
  cases h.classified source with
  | error cause => rfl
  | ok tokens =>
    simp only [analyse, Except.mapError_ok, bind, Except.bind]
    cases Label.collect tokens with
    | error fault => rfl
    | ok collected =>
      simp only [resolution]
      cases Directive.check h.grammar (Label.resolve h.grammar h.policy.caseSensitive
          h.policy.severity collected.1 tokens).1 with
      | error fault => rfl
      | ok checked => rfl

theorem highlight_eq_ok_iff {s : Stream} :
    h.highlight source version = .ok s ↔ ∃ steps : Steps h source, s = steps.stream version := by
  rw [highlight_eq]
  constructor
  · intro hok
    obtain ⟨tokens, hclassified, hok⟩ := Except.bind_eq_ok_iff.mp hok
    obtain ⟨⟨labels, duplicates⟩, hcollect, hok⟩ := Except.bind_eq_ok_iff.mp hok
    obtain ⟨⟨checked, found⟩, hcheck, hok⟩ := Except.bind_eq_ok_iff.mp hok
    cases hok
    have hclassified := Except.mapError_eq_ok_iff.mp hclassified
    exact ⟨⟨tokens, labels, duplicates, checked, found, hclassified, hcollect, hcheck⟩, rfl⟩
  · rintro ⟨steps, rfl⟩
    refine Except.bind_eq_ok_iff.mpr ⟨_, Except.mapError_eq_ok_iff.mpr steps.classified_eq, ?_⟩
    refine Except.bind_eq_ok_iff.mpr ⟨_, steps.collect_eq, ?_⟩
    exact Except.bind_eq_ok_iff.mpr ⟨_, steps.check_eq, rfl⟩

theorem Steps.map_span_resolution (steps : Steps h source) :
    (h.resolution steps.labels steps.tokens).1.map Token.span =
      (h.lexemes source).map Lexeme.span :=
  calc (h.resolution steps.labels steps.tokens).1.map Token.span
      = steps.tokens.map Token.span := Label.map_span_resolveFrom none steps.tokens
    _ = (h.lexemes source).map Lexeme.span := Token.map_span_classifyFrom steps.classified_eq

/-- The tokens stand where the lexemes stand. -/
theorem Steps.map_span (steps : Steps h source) :
    steps.checked.map Token.span = (h.lexemes source).map Lexeme.span :=
  (Directive.map_span_check steps.check_eq).trans steps.map_span_resolution

theorem Steps.tiling (steps : Steps h source) :
    Tiling .start source.toList (steps.checked.map Token.span) := by
  rw [steps.map_span]
  exact Lexeme.scan_tiling _ source

theorem Steps.tiles (steps : Steps h source) : Tiles source (steps.checked.map Token.span) :=
  steps.tiling.tiles

/-- No two tokens cover the same character. -/
theorem Steps.eq_of_covers (steps : Steps h source) {t u : Token} (ht : t ∈ steps.checked)
    (hu : u ∈ steps.checked) {i : Int} (hti : t.range.covers i = true)
    (hui : u.range.covers i = true) : t = u := by
  have hordered := List.pairwise_map.mp steps.tiles.ordered
  have hpairwise : steps.checked.Pairwise fun t u =>
      t.range.covers i = true → u.range.covers i = true → t = u := by
    refine hordered.imp fun {t u} hle hti hui => ?_
    have hle : t.range.stop.offset ≤ u.range.start.offset := hle
    simp only [Range.covers, Bool.and_eq_true, decide_eq_true_eq] at hti hui
    omega
  have hsymm : Std.Symm fun t u : Token =>
      t.range.covers i = true → u.range.covers i = true → t = u :=
    ⟨fun _ _ h hti hui => (h hui hti).symm⟩
  exact hpairwise.forall_of_forall (fun _ _ _ _ => rfl) ht hu hti hui

theorem Steps.range_eq (steps : Steps h source) :
    ∀ t ∈ steps.checked, t.range = .ofLength t.range.start t.text.length :=
  fun t ht => steps.tiling.range_eq t.span (List.mem_map_of_mem ht)

/-- A token covers as many characters as its text has. -/
theorem Steps.length_eq (steps : Steps h source) :
    ∀ t ∈ steps.checked, t.range.length = t.text.length := by
  intro t ht
  rw [steps.range_eq t ht]
  simp only [Range.length, Range.ofLength, Position.offset_shift]
  omega

/-- Putting the tokens into order does not move them. -/
theorem Steps.tokens_stream (steps : Steps h source) (version : Json) :
    (steps.stream version).tokens = steps.checked :=
  Stream.sortTokens_eq_self steps.tiles

theorem Steps.diagnostics_stream (steps : Steps h source) (hcap : h.policy.cap = none)
    (version : Json) :
    (steps.stream version).diagnostics = Diagnostic.sort steps.diagnostics := by
  simp only [stream, Stream.emit, cap, hcap]
  rfl

/-- The tokens of a highlighted document tile it, with any grammar and any settings. -/
theorem tokens_tile (h : Highlighter) {source : String} {version : Json} {s : Stream}
    (hok : h.highlight source version = .ok s) : Tiles source (s.tokens.map Token.span) := by
  obtain ⟨steps, rfl⟩ := highlight_eq_ok_iff.mp hok
  rw [steps.tokens_stream]
  exact steps.tiles

/-- Escapes, a string that is not closed, and line breaks of both kinds are tiled. -/
theorem tokens_tile_unclosed :
    ∃ s, standard.highlight ".x: #str \"a\\\"\"\r\n  jp x ;,\u00e9\r\"\\" = .ok s ∧
      Tiles ".x: #str \"a\\\"\"\r\n  jp x ;,\u00e9\r\"\\" (s.tokens.map Token.span) := by
  have hisOk : (standard.highlight ".x: #str \"a\\\"\"\r\n  jp x ;,\u00e9\r\"\\").isOk = true := by
    with_unfolding_all decide
  obtain ⟨s, hok⟩ := Except.exists_eq_ok_of_isOk hisOk
  exact ⟨s, hok, tokens_tile standard hok⟩

-- ---------------------------------------------------------------------------
-- In terms of lexemes
-- ---------------------------------------------------------------------------

theorem Steps.pass (steps : Steps h source) :
    Token.Pass h.grammar h.policy.caseSensitive (h.lexemes source) steps.tokens :=
  Token.pass_of_classifyAll steps.classified_eq

theorem run_of_classified (hg : h.grammar.Sound) {tokens : List Token}
    (hclassified : h.classified source = .ok tokens) :
    Token.Run h.grammar h.policy.caseSensitive (h.lexemes source) tokens :=
  (Token.pass_of_classifyAll hclassified).run hg

/-- What checking sees in the resolved tokens are the lexemes of the document. -/
theorem seen_resolution (hg : h.grammar.Sound) {tokens : List Token}
    (hclassified : h.classified source = .ok tokens) (labels : Label.Table) :
    List.Forall₂ (Directive.Seen h.grammar) (h.lexemes source) (h.resolution labels tokens).1 := by
  have hrun := run_of_classified hg hclassified
  refine Label.forall₂_resolveFrom ?_ (hrun.exists_classified.imp ?_) none
  · intro l t hcat hseen
    refine hseen.of_category_eq hcat (Label.category_reference labels t) ?_
    exact congrArg (fun s => s.range.line) (Label.span_reference labels t)
  · rintro l t ⟨previous, hclass⟩
    exact Directive.seen_of_classified hg hclass

end Highlighter

end AsmHighlight
