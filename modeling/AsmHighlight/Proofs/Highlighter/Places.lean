-- SUMMARY: What the steps leave at each place of a document, and what they say about it.
import AsmHighlight.Proofs.Diagnostic.Sorted
import AsmHighlight.Proofs.Directive.Remarks
import AsmHighlight.Proofs.Highlighter.Steps

/-!
# Places of a highlighted document

The steps after classification change single tokens and never move one. At each
place the stream has a reference, if classification left the operand of a jump
there, and else the token of classification with its category and its label
(`Steps.exists_classified`).

The diagnostics of each step have codes of their own, and the steps find them in
the order of the document. So the stream lists the diagnostics of one step as
they were found (`Steps.filter_duplicateLabel`, `Steps.filter_unresolvedReference`).
-/

namespace AsmHighlight.Highlighter.Steps

variable {h : Highlighter} {source : String} (steps : Steps h source)

-- ---------------------------------------------------------------------------
-- Tokens
-- ---------------------------------------------------------------------------

/-- The token that classification left at place `i` is the operand of a jump. -/
def isOperandAt (i : Nat) (c : Token) : Bool :=
  Label.isJumpOperand h.grammar h.policy.caseSensitive (itemBefore none steps.tokens i) c

theorem category_of_isOperandAt {i : Nat} {c : Token} (hop : steps.isOperandAt i c = true) :
    c.category = .identifier := by
  simp only [isOperandAt, Label.isJumpOperand, Bool.and_eq_true, beq_iff_eq] at hop
  exact hop.1

/-- What comes of the token that classification left at a place. -/
theorem getElem?_checked (i : Nat) :
    steps.checked[i]? = steps.tokens[i]?.map fun c =>
      if steps.isOperandAt i c then Label.reference steps.labels c
      else Directive.mark h.grammar c := by
  rw [Directive.eq_map_mark_of_check steps.check_eq, List.getElem?_map, resolution, Label.resolve,
    Label.resolveFrom_getElem?, Option.map_map]
  congr 1
  funext c
  have hreference : Directive.mark h.grammar (Label.reference steps.labels c) =
      Label.reference steps.labels c := by
    apply Directive.mark_of_category_ne
    rw [Label.category_reference]
    decide
  rw [Function.comp_apply, apply_ite (Directive.mark h.grammar), hreference]
  rfl

theorem exists_classified {i : Nat} {t : Token} (ht : steps.checked[i]? = some t) :
    ∃ c, steps.tokens[i]? = some c ∧ t.span = c.span ∧
      ((steps.isOperandAt i c = true ∧ t = Label.reference steps.labels c) ∨
        (steps.isOperandAt i c = false ∧ t = Directive.mark h.grammar c)) := by
  rw [getElem?_checked] at ht
  obtain ⟨c, hc, rfl⟩ := Option.map_eq_some_iff.mp ht
  refine ⟨c, hc, ?_⟩
  split
  next hop => exact ⟨Label.span_reference .., .inl ⟨hop, rfl⟩⟩
  next hop => exact ⟨Directive.span_mark .., .inr ⟨eq_false_of_ne_true hop, rfl⟩⟩

/-- The steps after classification leave the declarations as they are. -/
theorem declaredAt?_checked (i : Nat) :
    Label.declaredAt? steps.checked i = Label.declaredAt? steps.tokens i := by
  rw [Label.declaredAt?, Label.declaredAt?, getElem?_checked]
  cases steps.tokens[i]? with
  | none => rfl
  | some c =>
    simp only [Option.map_some, Option.bind_some]
    split
    next hop =>
      have hcat := steps.category_of_isOperandAt hop
      simp [Label.ofToken?, Label.declaredName?, Label.category_reference, hcat]
    next =>
      by_cases hcat : c.category = .directiveKeyword
      · simp [Label.ofToken?, Label.declaredName?, Directive.category_mark, hcat]
      · rw [Directive.mark_of_category_ne hcat]

-- ---------------------------------------------------------------------------
-- Diagnostics
-- ---------------------------------------------------------------------------

theorem starts_increasing {tokens : List Token}
    (hspan : tokens.map Token.span = (h.lexemes source).map Lexeme.span) :
    tokens.Pairwise fun t u => t.range.start.offset < u.range.start.offset := by
  have hlt := (Lexeme.scan_tiling (some h.policy.sigil) source).tiles.start_lt
  rw [← lexemes, ← hspan, List.pairwise_map] at hlt
  exact hlt

theorem start_lt {i j : Nat} {t u : Token} (hij : i < j) (ht : steps.tokens[i]? = some t)
    (hu : steps.tokens[j]? = some u) : t.range.start.offset < u.range.start.offset := by
  obtain ⟨hi, rfl⟩ := List.getElem?_eq_some_iff.mp ht
  obtain ⟨hj, rfl⟩ := List.getElem?_eq_some_iff.mp hu
  exact List.pairwise_iff_getElem.mp (starts_increasing steps.pass.map_span) i j hi hj hij

theorem malformed_of_mem {d : Diagnostic} (hd : d ∈ steps.tokens.filterMap Token.malformed?) :
    d.code = .malformedLexeme ∧ ∃ t ∈ steps.tokens, d.range = t.range := by
  obtain ⟨t, ht, hd⟩ := List.mem_filterMap.mp hd
  unfold Token.malformed? at hd
  split at hd
  next =>
    cases hd
    exact ⟨rfl, t, ht, rfl⟩
  next => cases hd

theorem duplicate_of_mem {d : Diagnostic} (hd : d ∈ steps.duplicates) :
    d.code = .duplicateLabel ∧ ∃ t ∈ steps.tokens, d.range = t.range := by
  obtain ⟨i, label, first, hlabel, _, rfl⟩ :=
    (Label.enumerates_duplicates steps.collect_eq).exists_place d hd
  obtain ⟨t, ht, _, hrange⟩ := Label.exists_of_declaredAt? hlabel
  exact ⟨rfl, t, List.mem_of_getElem? ht, hrange.symm⟩

theorem unresolved_of_mem {d : Diagnostic}
    (hd : d ∈ (h.resolution steps.labels steps.tokens).2) :
    d.code = .unresolvedReference ∧ ∃ t ∈ steps.tokens, d.range = t.range := by
  obtain ⟨i, t, ht, _, _, rfl⟩ := (Label.enumerates_unresolved none steps.tokens).exists_place d hd
  exact ⟨rfl, t, List.mem_of_getElem? ht, rfl⟩

theorem isRemarkCode_of_mem {d : Diagnostic} (hd : d ∈ steps.found) :
    Directive.isRemarkCode d.code = true := by
  obtain ⟨_, _, _, hremark⟩ := Directive.exists_remark_of_mem_check steps.check_eq d hd
  exact hremark.isRemarkCode

/-- The code of a diagnostic tells which step has found it. -/
theorem filter_diagnostics (code : Diagnostic.Code) :
    steps.diagnostics.filter (fun d => d.code = code) =
      (if .malformedLexeme = code then steps.tokens.filterMap Token.malformed? else []) ++
      (if .duplicateLabel = code then steps.duplicates else []) ++
      (if .unresolvedReference = code then (h.resolution steps.labels steps.tokens).2 else []) ++
      (if Directive.isRemarkCode code then steps.found.filter (fun d => d.code = code) else []) := by
  simp only [diagnostics, List.filter_append]
  congr 1
  · congr 1
    · congr 1
      · exact Diagnostic.filter_code fun d hd => (steps.malformed_of_mem hd).1
      · exact Diagnostic.filter_code fun d hd => (steps.duplicate_of_mem hd).1
    · exact Diagnostic.filter_code fun d hd => (steps.unresolved_of_mem hd).1
  · split
    next => rfl
    next hcode =>
      rw [List.filter_eq_nil_iff]
      intro d hd hd'
      exact hcode (of_decide_eq_true hd' ▸ steps.isRemarkCode_of_mem hd)

/-- The stream lists the repeated declarations as collecting has found them. -/
theorem filter_duplicateLabel (hcap : h.policy.cap = none) (version : Json) :
    (steps.stream version).diagnostics.filter (fun d => d.code = .duplicateLabel) =
      steps.duplicates := by
  have hfiltered : steps.diagnostics.filter (fun d => d.code = .duplicateLabel) =
      steps.duplicates := by
    simpa [Directive.isRemarkCode] using steps.filter_diagnostics .duplicateLabel
  rw [steps.diagnostics_stream hcap, Diagnostic.filter_sort, hfiltered]
  rw [hfiltered]
  apply (Label.enumerates_duplicates steps.collect_eq).pairwise
  rintro i j _ _ hij ⟨label, first, hlabel, _, rfl⟩ ⟨label', first', hlabel', _, rfl⟩
  obtain ⟨t, ht, _, hrange⟩ := Label.exists_of_declaredAt? hlabel
  obtain ⟨u, hu, _, hrange'⟩ := Label.exists_of_declaredAt? hlabel'
  have hlt := steps.start_lt hij ht hu
  rw [hrange, hrange'] at hlt
  exact Diagnostic.sortLe_of_start_lt hlt

/-- The stream lists the unknown references as resolution has found them. -/
theorem filter_unresolvedReference (hcap : h.policy.cap = none) (version : Json) :
    (steps.stream version).diagnostics.filter (fun d => d.code = .unresolvedReference) =
      (h.resolution steps.labels steps.tokens).2 := by
  have hfiltered : steps.diagnostics.filter (fun d => d.code = .unresolvedReference) =
      (h.resolution steps.labels steps.tokens).2 := by
    simpa [Directive.isRemarkCode] using steps.filter_diagnostics .unresolvedReference
  rw [steps.diagnostics_stream hcap, Diagnostic.filter_sort, hfiltered]
  rw [hfiltered]
  apply (Label.enumerates_unresolved none steps.tokens).pairwise
  rintro i j _ _ hij ⟨t, ht, _, _, rfl⟩ ⟨u, hu, _, _, rfl⟩
  exact Diagnostic.sortLe_of_start_lt (steps.start_lt hij ht hu)

end AsmHighlight.Highlighter.Steps
