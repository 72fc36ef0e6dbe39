-- SUMMARY: Every diagnostic of a highlighted document can be shown on its line.
import AsmHighlight.Proofs.Diagnostic.Excerpt
import AsmHighlight.Proofs.Highlighter.Places

/-!
# Excerpts of a highlighted document

Most diagnostics have the range of a token, which covers its text on one line.
The remark on surplus operands has a range from one token to another; these are
operands of the same directive, so they stand on one line too and all that is
between them belongs to it (`Steps.exists_covering`). A report can therefore
show every diagnostic (`diagnostics_shown`).
-/

namespace AsmHighlight.Highlighter

namespace Steps

variable {h : Highlighter} {source : String} (steps : Steps h source)

/-- A cap only takes diagnostics away. -/
theorem mem_diagnostics_of_mem_stream {version : Json} {d : Diagnostic}
    (hd : d ∈ (steps.stream version).diagnostics) : d ∈ steps.diagnostics := by
  have hsorted : d ∈ Diagnostic.sort steps.diagnostics := by
    simp only [stream, Stream.emit] at hd
    cases hcap : h.cap with
    | none =>
      rw [hcap] at hd
      exact hd
    | some n =>
      rw [hcap, Option.elim_some] at hd
      split at hd
      next => exact List.mem_of_mem_take hd
      next => exact hd
  exact (List.mergeSort_perm _ _).mem_iff.mp hsorted

/-- Tokens in the places of the lexemes cover their texts. -/
theorem exists_covering_of_mem {tokens : List Token}
    (hspan : tokens.map Token.span = (h.lexemes source).map Lexeme.span) {t : Token}
    (ht : t ∈ tokens) :
    ∃ before behind, t.range.Covering source.toList before t.text.toList behind := by
  apply (Lexeme.scan_tiling (some h.policy.sigil) source).covering t.span
  have hmem : t.span ∈ tokens.map Token.span := List.mem_map_of_mem ht
  rw [hspan] at hmem
  exact hmem

/-- From the first to the last of some tokens on a line there is a part of that line. -/
theorem exists_covering_of_sublist {tokens : List Token}
    (hspan : tokens.map Token.span = (h.lexemes source).map Lexeme.span) {first : Token}
    {more : List Token} (hsub : (first :: more).Sublist tokens)
    (hline : ∀ u ∈ more, u.line = first.line) :
    ∃ before piece behind, Range.Covering source.toList
      ⟨first.range.start, (more.getLastD first).range.stop⟩ before piece behind := by
  have hlast : more.getLastD first ∈ first :: more := List.getLastD_mem_cons ..
  have hstarts := (starts_increasing hspan).sublist hsub
  obtain ⟨hle, hline⟩ : first.range.start.offset ≤ (more.getLastD first).range.start.offset ∧
      first.line = (more.getLastD first).line := by
    rcases List.mem_cons.mp hlast with heq | hmore
    · rw [heq]
      exact ⟨Int.le_refl _, rfl⟩
    · exact ⟨Int.le_of_lt ((List.pairwise_cons.mp hstarts).1 _ hmore), (hline _ hmore).symm⟩
  obtain ⟨before, _, hcover⟩ :=
    exists_covering_of_mem hspan (hsub.subset (List.mem_cons_self ..))
  obtain ⟨_, behind, hcover'⟩ := exists_covering_of_mem hspan (hsub.subset hlast)
  obtain ⟨between, hjoin⟩ := hcover.join hcover' hle hline
  exact ⟨before, _, behind, hjoin⟩

/-- The range of a remark on a directive covers part of a line. -/
theorem exists_covering_of_remark {t : Token} {after : List Token} {d : Diagnostic}
    (hsuffix : (t :: after) <:+ (h.resolution steps.labels steps.tokens).1)
    (hremark : Directive.Remark t (Directive.operands t.line after) d) :
    ∃ before piece behind, d.range.Covering source.toList before piece behind := by
  have hspan := steps.map_span_resolution
  have hsub : (Directive.operands t.line after).Sublist
      (h.resolution steps.labels steps.tokens).1 :=
    ((Directive.operands_sublist t.line after).trans (List.sublist_cons_self t after)).trans
      hsuffix.sublist
  have hline {u : Token} (hu : u ∈ Directive.operands t.line after) : u.line = t.line :=
    Directive.line_of_mem_operands hu
  generalize Directive.operands t.line after = ops at hremark hsub hline
  cases hremark with
  | missing _ hrange =>
    obtain ⟨before, behind, hcover⟩ :=
      exists_covering_of_mem hspan (hsuffix.subset (List.mem_cons_self ..))
    exact ⟨before, _, behind, hrange ▸ hcover⟩
  | first _ hrange =>
    obtain ⟨before, behind, hcover⟩ :=
      exists_covering_of_mem hspan (hsub.subset (List.mem_cons_self ..))
    exact ⟨before, _, behind, hrange ▸ hcover⟩
  | @surplus o first more _ _ hrange =>
    rw [hrange]
    apply exists_covering_of_sublist hspan ((List.sublist_cons_self ..).trans hsub)
    intro u hu
    have hfirst : first ∈ o :: first :: more := List.mem_cons_of_mem o (List.mem_cons_self ..)
    have hu' : u ∈ o :: first :: more := List.mem_cons_of_mem o (List.mem_cons_of_mem first hu)
    exact (hline hu').trans (hline hfirst).symm

/-- The range of every diagnostic covers part of a line. -/
theorem exists_covering {d : Diagnostic} (hd : d ∈ steps.diagnostics) :
    ∃ before piece behind, d.range.Covering source.toList before piece behind := by
  have htoken (hrange : ∃ t ∈ steps.tokens, d.range = t.range) :
      ∃ before piece behind, d.range.Covering source.toList before piece behind := by
    obtain ⟨t, ht, hrange⟩ := hrange
    obtain ⟨before, behind, hcover⟩ := exists_covering_of_mem steps.pass.map_span ht
    exact ⟨before, _, behind, hrange ▸ hcover⟩
  rw [diagnostics] at hd
  simp only [List.mem_append] at hd
  rcases hd with ((hd | hd) | hd) | hd
  · exact htoken (steps.malformed_of_mem hd).2
  · exact htoken (steps.duplicate_of_mem hd).2
  · exact htoken (steps.unresolved_of_mem hd).2
  · obtain ⟨t, after, hsuffix, hremark⟩ :=
      Directive.exists_remark_of_mem_check steps.check_eq d hd
    exact steps.exists_covering_of_remark hsuffix hremark

end Steps

/-- A report on any diagnostic shows the line it is on, and carets under exactly the
    characters of its range. -/
theorem diagnostics_shown (h : Highlighter) {source : String} {version : Json} {s : Stream}
    (hok : h.highlight source version = .ok s) :
    ∀ d ∈ s.diagnostics, ∃ line left, d.Shown source line left := by
  intro d hd
  obtain ⟨steps, rfl⟩ := highlight_eq_ok_iff.mp hok
  obtain ⟨before, piece, behind, hcover⟩ :=
    steps.exists_covering (steps.mem_diagnostics_of_mem_stream hd)
  exact hcover.exists_shown

/-- Surplus operands on a line after CR CR LF and a form feed can be shown. -/
theorem diagnostics_shown_surplus :
    ∃ s, standard.highlight "\x0c\r\r\n\x0c#d8 1, 2 x,3\r" = .ok s ∧
      s.diagnostics.map Diagnostic.code = [.operandSurplus] ∧
      ∀ d ∈ s.diagnostics, ∃ line left, d.Shown "\x0c\r\r\n\x0c#d8 1, 2 x,3\r" line left := by
  have hcodes : (standard.highlight "\x0c\r\r\n\x0c#d8 1, 2 x,3\r").toOption.map
      (fun s => s.diagnostics.map Diagnostic.code) = some [.operandSurplus] := by
    with_unfolding_all decide
  cases hok : standard.highlight "\x0c\r\r\n\x0c#d8 1, 2 x,3\r" with
  | error fault => rw [hok] at hcodes; cases hcodes
  | ok s =>
    rw [hok] at hcodes
    exact ⟨s, rfl, Option.some.inj hcodes, diagnostics_shown standard hok⟩

end AsmHighlight.Highlighter
