-- SUMMARY: A highlighted document has one token for each lexeme, and what the steps leave as it is.
import AsmHighlight.Proofs.Highlighter.Places

/-!
# One token for each lexeme

Four steps rewrite the list of tokens and the last one sorts it. None of them
adds, drops or moves a token, so the token at each place is that of the lexeme
there, and the sort has nothing to do or to warn of. After classification a
token changes in two ways only (`Token.Kept`): an identifier can become a
reference, and references and directive keywords get attributes of their own.
-/

namespace AsmHighlight

/-- What is left of a token of classification in the stream. -/
structure Token.Kept (classified t : Token) : Prop where
  category : t.category = classified.category ∨
    (classified.category = .identifier ∧ t.category = .labelReference)
  attributes : t.category ≠ .labelReference → t.category ≠ .directiveKeyword →
    t.attributes = classified.attributes

namespace Highlighter

namespace Steps

variable {h : Highlighter} {source : String} (steps : Steps h source) (version : Json)

/-- Each step leaves one record, and the last one may leave warnings. -/
theorem log_run : (h.run source version).log =
    [.collected steps.labels.length,
      .resolved (h.resolution steps.labels steps.tokens).2.length,
      .validated (steps.checked.countP fun t => t.category = .directiveKeyword)] ++
      Stream.emitLog h.cap (steps.stream version) := by
  have hcheck := steps.check_eq
  rw [resolution] at hcheck
  simp only [run, steps.classified_eq, analyse, steps.collect_eq, hcheck]
  rfl

/-- The tokens come to the sort without overlaps. -/
theorem overlaps_checked : Stream.overlaps steps.checked = [] :=
  Stream.overlaps_eq_nil (List.pairwise_map.mp steps.tiles.ordered)

include steps in
theorem overlapping_notMem_log (t u : Token) :
    .overlapping t u ∉ (h.run source version).log := by
  rw [steps.log_run, List.mem_append, Stream.overlapping_mem_emitLog_iff, steps.tokens_stream,
    steps.overlaps_checked]
  simp

/-- The steps after classification keep the tokens place by place. -/
theorem kept_checked : List.Forall₂ Token.Kept steps.tokens steps.checked := by
  rw [List.forall₂_iff_get]
  refine ⟨?_, fun i hi hi' => ?_⟩
  · have hspan := steps.map_span.trans steps.pass.map_span.symm
    simpa using (congrArg List.length hspan).symm
  · obtain ⟨c, hc, _, hmade⟩ := steps.exists_classified (List.getElem?_eq_getElem hi')
    obtain rfl : steps.tokens[i] = c := Option.some.inj ((List.getElem?_eq_getElem hi).symm.trans hc)
    rcases hmade with ⟨hop, hreference⟩ | ⟨_, hmark⟩
    · rw [List.get_eq_getElem, List.get_eq_getElem, hreference]
      have hcat := Label.category_reference steps.labels steps.tokens[i]
      exact ⟨.inr ⟨steps.category_of_isOperandAt hop, hcat⟩, fun hne => absurd hcat hne⟩
    · rw [List.get_eq_getElem, List.get_eq_getElem, hmark]
      have hcat := Directive.category_mark h.grammar steps.tokens[i]
      refine ⟨.inl hcat, fun _ hne => ?_⟩
      rw [hcat] at hne
      rw [Directive.mark_of_category_ne hne]

end Steps

/-- The stream has the text and range of each lexeme at the lexeme's place, and what
    classification has found there. The sort at the end changes nothing, and no overlap
    is logged. -/
structure OneTokenPerLexeme (h : Highlighter) (source : String) (version : Json) (s : Stream)
    (steps : Steps h source) : Prop where
  length_eq : s.tokens.length = (h.lexemes source).length
  placed : ∀ (i : Nat) (l : Lexeme) (t : Token), (h.lexemes source)[i]? = some l →
    s.tokens[i]? = some t → t.text = l.text ∧ t.range = l.range
  unmoved : Stream.sortTokens steps.checked = steps.checked
  apart : ∀ t u, .overlapping t u ∉ (h.run source version).log
  kept : List.Forall₂ Token.Kept steps.tokens s.tokens

/-- A highlighted document has one token for each lexeme, through all steps. -/
theorem one_token_per_lexeme (h : Highlighter) {source : String} {version : Json} {s : Stream}
    (hok : h.highlight source version = .ok s) :
    ∃ steps : Steps h source, s = steps.stream version ∧
      OneTokenPerLexeme h source version s steps := by
  obtain ⟨steps, rfl⟩ := highlight_eq_ok_iff.mp hok
  refine ⟨steps, rfl, ?_, ?_, ?_, ?_, ?_⟩
  · rw [steps.tokens_stream]
    simpa using congrArg List.length steps.map_span
  · intro i l t hl ht
    rw [steps.tokens_stream] at ht
    obtain ⟨l', hl', hspan⟩ := Token.exists_lexeme_of_map_span steps.map_span ht
    cases hl.symm.trans hl'
    exact ⟨congrArg Span.text hspan, congrArg Span.range hspan⟩
  · exact Stream.sortTokens_eq_self steps.tiles
  · exact steps.overlapping_notMem_log version
  · rw [steps.tokens_stream]
    exact steps.kept_checked

/-- The register after the jump becomes a reference, and the keyword after the comma gets
    its kind and width. -/
theorem one_token_per_lexeme_jump :
    ∃ s, standard.highlight "jp pc,#d8 1\r\n\t;x" = .ok s ∧
      s.diagnostics.map Diagnostic.code = [.unresolvedReference] ∧
      ∃ steps : Steps standard "jp pc,#d8 1\r\n\t;x",
        OneTokenPerLexeme standard "jp pc,#d8 1\r\n\t;x" .null s steps := by
  have hfound : (standard.highlight "jp pc,#d8 1\r\n\t;x").toOption.map
      (fun s => s.diagnostics.map Diagnostic.code) = some [.unresolvedReference] := by
    with_unfolding_all decide
  cases hok : standard.highlight "jp pc,#d8 1\r\n\t;x" with
  | error fault => rw [hok] at hfound; cases hfound
  | ok s =>
    rw [hok] at hfound
    obtain ⟨steps, _, hkept⟩ := one_token_per_lexeme standard hok
    exact ⟨s, rfl, Option.some.inj hfound, steps, hkept⟩

end Highlighter

end AsmHighlight
