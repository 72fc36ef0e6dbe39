-- SUMMARY: Documents whose lexemes differ in their places only are highlighted alike.
import AsmHighlight.Proofs.Diagnostic.Relocated
import AsmHighlight.Proofs.Directive.Relocated
import AsmHighlight.Proofs.Highlighter.Places
import AsmHighlight.Proofs.Token.Relocated

/-!
# Highlighting a relocated document

Every step of the highlighter commutes with a relocation, and the order of the
lexemes is that of their offsets in any document. So, if the lexemes of one
document are the relocated lexemes of another, its stream is the relocated
stream, up to the hints that tell places (`highlight_relocate`).
-/

namespace AsmHighlight

/-- The lexemes of a document start and end one after the other. -/
theorem Lexeme.precedes_scan (sigil : Option Char) (source : String) :
    ((scan sigil source).map range).Pairwise Range.Precedes := by
  have htiles := (scan_tiling sigil source).tiles
  have hordered := htiles.ordered
  rw [List.pairwise_map] at hordered ⊢
  refine hordered.imp_of_mem fun {l q} hl hq hle => ?_
  have hinside (m : Lexeme) (hm : m ∈ scan sigil source) :
      m.range.start.offset < m.range.stop.offset :=
    (htiles.inside m.span (List.mem_map_of_mem hm)).2.1
  exact ⟨Int.lt_of_lt_of_le (hinside l hl) hle, Int.lt_of_le_of_lt hle (hinside q hq)⟩

namespace Highlighter

namespace Steps

variable {h : Highlighter} {source : String} (steps : Steps h source)

theorem range_mem {tokens : List Token}
    (hspan : tokens.map Token.span = (h.lexemes source).map Lexeme.span) {t : Token}
    (ht : t ∈ tokens) : t.range ∈ (h.lexemes source).map Lexeme.range := by
  have hranges := congrArg (List.map Span.range) hspan
  rw [List.map_map, List.map_map] at hranges
  exact hranges ▸ List.mem_map_of_mem ht

/-- Every diagnostic goes from the start of a lexeme to the end of one. -/
theorem spans_of_mem {d : Diagnostic} (hd : d ∈ steps.diagnostics) :
    d.Spans ((h.lexemes source).map Lexeme.range) := by
  have hwhole : (∃ t ∈ steps.tokens, d.range = t.range) →
      d.Spans ((h.lexemes source).map Lexeme.range) := by
    rintro ⟨t, ht, hrange⟩
    exact .of_range_eq (range_mem steps.pass.map_span ht) hrange
  simp only [diagnostics, List.mem_append] at hd
  rcases hd with ((hd | hd) | hd) | hd
  · exact hwhole (steps.malformed_of_mem hd).2
  · exact hwhole (steps.duplicate_of_mem hd).2
  · exact hwhole (steps.unresolved_of_mem hd).2
  · obtain ⟨t, after, hsuffix, hremark⟩ := Directive.exists_remark_of_mem_check steps.check_eq d hd
    have hmem : ∀ u ∈ t :: after, u.range ∈ (h.lexemes source).map Lexeme.range :=
      fun u hu => range_mem steps.map_span_resolution (hsuffix.subset hu)
    have hoperand : ∀ u ∈ Directive.operands t.line after,
        u.range ∈ (h.lexemes source).map Lexeme.range :=
      fun u hu => hmem u (List.mem_cons_of_mem t (Directive.mem_of_mem_operands hu))
    generalize Directive.operands t.line after = ops at hremark hoperand
    cases hremark with
    | missing _ hrange => exact .of_range_eq (hmem t (List.mem_cons_self ..)) hrange
    | first _ hrange => exact .of_range_eq (hoperand _ (List.mem_cons_self ..)) hrange
    | @surplus o first more _ _ hrange =>
      have hfirst := hoperand first (List.mem_cons_of_mem o (List.mem_cons_self ..))
      have hlast := hoperand _ (List.mem_cons_of_mem o List.getLastD_mem_cons)
      exact ⟨⟨_, hfirst, by rw [hrange]⟩, ⟨_, hlast, by rw [hrange]⟩⟩

end Steps

section Relocate

variable {h : Highlighter} {source moved : String} {ρ : Relocation}
  {f : Option String → Option String}

theorem resolution_relocate (h : Highlighter) (ρ : Relocation) (labels : Label.Table)
    (tokens : List Token) :
    h.resolution (labels.map (Label.relocate ρ)) (tokens.map (Token.relocate ρ)) =
      Prod.map (List.map (Token.relocate ρ)) (List.map (Diagnostic.relocate ρ))
        (h.resolution labels tokens) :=
  Label.resolveFrom_relocate ρ labels none tokens

theorem sortTokens_relocate {ranges : List Range}
    (hρ : ∀ r ∈ ranges, ∀ s ∈ ranges, ρ.KeepsOrder r s) {tokens : List Token}
    (hranges : ∀ t ∈ tokens, t.range ∈ ranges) :
    Stream.sortTokens (tokens.map (Token.relocate ρ)) =
      (Stream.sortTokens tokens).map (Token.relocate ρ) := by
  refine (List.map_mergeSort fun t ht u hu => ?_).symm
  have htu := hρ _ (hranges t ht) _ (hranges u hu)
  have hut := hρ _ (hranges u hu) _ (hranges t ht)
  have hstart : (ρ.start t.range.start).offset = (ρ.start u.range.start).offset ↔
      t.range.start.offset = u.range.start.offset := by
    have hlt := htu.start
    have hgt := hut.start
    omega
  have hstop : (ρ.stop t.range.stop).offset ≤ (ρ.stop u.range.stop).offset ↔
      t.range.stop.offset ≤ u.range.stop.offset := by
    have hgt := hut.stop
    omega
  rw [Bool.eq_iff_iff]
  simp only [Stream.tokenLe, Token.relocate, Range.relocate, Bool.or_eq_true, Bool.and_eq_true,
    decide_eq_true_eq, beq_iff_eq, htu.start, hstart, hstop]

/-- The relocated stream comes of the relocated results. -/
theorem mapHints_emit {cap : Option Int} {version : Json} {tokens : List Token}
    {ds ds' : List Diagnostic} {labels : Label.Table}
    (htokens : Stream.sortTokens (tokens.map (Token.relocate ρ)) =
      (Stream.sortTokens tokens).map (Token.relocate ρ))
    (hsort : Diagnostic.sort (ds.map (Diagnostic.relocate ρ)) =
      (Diagnostic.sort ds).map (Diagnostic.relocate ρ))
    (hds : ds'.map (Diagnostic.mapHint f) = ds.map fun d => (d.relocate ρ).mapHint f) :
    (Stream.emit cap version (tokens.map (Token.relocate ρ)) ds'
        (labels.map (Label.relocate ρ))).mapHints f =
      ((Stream.emit cap version tokens ds labels).relocate ρ).mapHints f := by
  have hsorted : (Diagnostic.sort ds').map (Diagnostic.mapHint f) =
      ((Diagnostic.sort ds).map (Diagnostic.relocate ρ)).map (Diagnostic.mapHint f) := by
    rw [← Diagnostic.sort_mapHint, hds, ← hsort, ← Diagnostic.sort_mapHint, List.map_map]
    rfl
  have hlength : (Diagnostic.sort ds').length = (Diagnostic.sort ds).length := by
    simpa using congrArg List.length hsorted
  simp only [Stream.emit, Stream.mapHints, Stream.relocate, htokens]
  cases cap with
  | none =>
    simp only [Option.elim_none, hsorted]
  | some n =>
    simp only [Option.elim_some, Stream.takeCapped, Stream.beyondCap, hlength]
    congr 1
    split
    next => rw [List.map_take, hsorted, List.map_take, List.map_take]
    next => exact hsorted

/-- Documents whose lexemes differ in their places only, and not in their lines, are
    relocations of each other. -/
theorem exists_relocation_lexemes {R : Position → Position → Prop} (hrefl : ∀ p, R p p)
    (hline : ∀ p q, R p q → q.line = p.line)
    (halike : List.Forall₂ (Lexeme.Alike R) (h.lexemes source) (h.lexemes moved)) :
    ∃ ρ : Relocation, (∀ p, R p (ρ.start p)) ∧ (∀ p, R p (ρ.stop p)) ∧
      h.lexemes moved = (h.lexemes source).map (Lexeme.relocate ρ) := by
  refine exists_relocation hrefl hline halike ?_
  refine (List.pairwise_map.mp (Lexeme.precedes_scan _ source)).imp fun {l q} hlq => ⟨?_, ?_⟩
  · exact fun heq => Int.ne_of_lt hlq.1 (congrArg Position.offset heq)
  · exact fun heq => Int.ne_of_lt hlq.2 (congrArg Position.offset heq)

section Moved

variable (hlexemes : h.lexemes moved = (h.lexemes source).map (Lexeme.relocate ρ))

include hlexemes

theorem keepsOrder_lexemes : ∀ r ∈ (h.lexemes source).map Lexeme.range,
    ∀ s ∈ (h.lexemes source).map Lexeme.range, ρ.KeepsOrder r s := by
  apply Relocation.keepsOrder_of_pairwise
  · exact Lexeme.precedes_scan _ source
  · have hmoved : ((h.lexemes moved).map Lexeme.range).Pairwise Range.Precedes :=
      Lexeme.precedes_scan _ moved
    rw [hlexemes, List.map_map] at hmoved
    rw [List.map_map]
    exact hmoved

/-- If the lexemes of a document are the relocated lexemes of another, so is its stream. -/
theorem highlight_relocate (hf : Label.SameDuplicateHints f ρ) (version : Json) :
    (h.highlight moved version).map (Stream.mapHints f) =
      (h.highlight source version).map fun s => (s.relocate ρ).mapHints f := by
  have hclassified : h.classified moved =
      (h.classified source).map (List.map (Token.relocate ρ)) := by
    rw [classified, hlexemes]
    exact Token.classifyFrom_relocate ρ none _
  rw [highlight_eq, highlight_eq, hclassified]
  cases htokens : h.classified source with
  | error cause => rfl
  | ok tokens =>
    have hcollect : (Label.collect (tokens.map (Token.relocate ρ))).map _ = _ :=
      Label.collectFrom_relocate hf [] tokens
    simp only [Except.map, Except.mapError_ok, bind, Except.bind]
    cases hcollected : Label.collect tokens with
    | error fault =>
      rw [← Label.collect, hcollected] at hcollect
      rw [Except.map_eq_error_iff.mp hcollect]
    | ok collected =>
      rw [← Label.collect, hcollected] at hcollect
      obtain ⟨⟨labels, duplicates⟩, hcollected', hpair⟩ := Except.map_eq_ok_iff.mp hcollect
      obtain ⟨hlabels, hduplicates⟩ := Prod.ext_iff.mp hpair
      have hlabels : labels = collected.1.map (Label.relocate ρ) := hlabels
      subst hlabels
      have hcheck : Directive.check h.grammar
          ((h.resolution collected.1 tokens).1.map (Token.relocate ρ)) = _ :=
        (Directive.moves_relocate ρ).check_map _
      simp only [hcollected', resolution_relocate, Prod.map_fst, Prod.map_snd, hcheck]
      cases hchecked : Directive.check h.grammar (h.resolution collected.1 tokens).1 with
      | error fault => rfl
      | ok checked =>
        let steps : Steps h source := ⟨tokens, collected.1, collected.2, checked.1, checked.2,
          htokens, hcollected, hchecked⟩
        have hρ := keepsOrder_lexemes hlexemes
        refine congrArg Except.ok (mapHints_emit ?_ ?_ ?_)
        · exact sortTokens_relocate hρ fun t => Steps.range_mem steps.map_span
        · exact Diagnostic.sort_relocate hρ fun d => steps.spans_of_mem
        · rw [Prod.map_snd, Prod.map_snd] at hduplicates
          simp only [Token.filterMap_malformed?_relocate, Prod.map_snd, List.map_append, List.map_map,
            hduplicates]
          rfl

end Moved

end Relocate

end Highlighter

end AsmHighlight
