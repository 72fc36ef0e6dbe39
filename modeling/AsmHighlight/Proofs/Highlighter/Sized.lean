-- SUMMARY: How large the integers of a stream can be, in the length of the document.
import AsmHighlight.Proofs.Highlighter.Excerpts
import AsmHighlight.Proofs.Token.Presented

/-!
# Sizes

Reading a character moves a position by one line or one column, so no coordinate
is beyond the length of the document (`Range.Covering.within`). There are no more
tokens than characters, and no more than five diagnostics for a token. Every
integer of a stream that is not the value of a literal is therefore bounded by
the length of the document (`Steps.within`), and a document that is not enormous
(`IsShort`) can be written unless one of its literals cannot.
-/

namespace AsmHighlight

-- ---------------------------------------------------------------------------
-- Places
-- ---------------------------------------------------------------------------

namespace Position

theorem line_advance_le (p : Position) (c : Char) (rest : List Char) :
    (p.advance c rest).line ≤ p.line + 1 := by
  unfold advance
  split
  · exact Int.le_refl _
  · simp only [shift]
    omega

theorem column_advance_bounds {p : Position} (hp : 1 ≤ p.column) (c : Char) (rest : List Char) :
    1 ≤ (p.advance c rest).column ∧ (p.advance c rest).column ≤ p.column + 1 := by
  unfold advance
  split
  · simp only [nextLine]
    omega
  · simp only [column_shift]
    omega

theorem line_after_le (p : Position) (read rest : List Char) :
    (p.after read rest).line ≤ p.line + read.length := by
  induction read generalizing p with
  | nil => simp
  | cons c read ih =>
    have hstep := line_advance_le p c (read ++ rest)
    have hmore := ih (p.advance c (read ++ rest))
    rw [after, List.length_cons]
    omega

theorem column_after_bounds {p : Position} (hp : 1 ≤ p.column) (read rest : List Char) :
    1 ≤ (p.after read rest).column ∧ (p.after read rest).column ≤ p.column + read.length := by
  induction read generalizing p with
  | nil => simpa using hp
  | cons c read ih =>
    have hstep := column_advance_bounds hp c (read ++ rest)
    have hmore := ih hstep.1
    rw [after, List.length_cons]
    omega

end Position

/-- No coordinate of a covering range is beyond the end of the text. -/
theorem Range.Covering.within {text before piece behind : List Char} {r : Range}
    (h : r.Covering text before piece behind) : r.Within (text.length + 1) := by
  have hlength : text.length = before.length + piece.length + behind.length := by
    rw [h.text_eq, List.length_append, List.length_append, Nat.add_assoc]
  have hline : 1 ≤ r.start.line ∧ r.start.line ≤ 1 + before.length := by
    rw [h.range_eq]
    exact ⟨Position.line_le_after .start before _, Position.line_after_le .start before _⟩
  have hcolumn : 1 ≤ r.start.column ∧ r.start.column ≤ 1 + before.length := by
    rw [h.range_eq]
    exact Position.column_after_bounds (p := .start) (Int.le_refl 1) before _
  have hoffset := h.start_offset
  have hstop := h.stop_eq
  constructor
  · constructor <;> omega
  · rw [hstop, Position.shift]
    constructor <;> simp only <;> omega

namespace Highlighter

/-- A word of the document is the literal of an integer that has no decimal text within
    the bound. -/
def HasLongLiteral (lexemes : List Lexeme) : Prop :=
  ∃ l ∈ lexemes, l.kind = .word ∧
    ∃ v, Literal.IsInteger l.text.toList v ∧ 10 ^ Decimal.maxDigits ≤ v.natAbs

/-- The document is short enough for every place and count in it to have decimal text. -/
def IsShort (source : String) : Prop :=
  5 * source.length + 32 < 10 ^ Decimal.maxDigits

theorem isShort_of_lt {source : String} {digits : Nat} (hdigits : digits ≤ Decimal.maxDigits)
    (hlt : 5 * source.length + 32 < 10 ^ digits) : IsShort source :=
  Nat.lt_of_lt_of_le hlt (Nat.pow_le_pow_right (by decide) hdigits)

namespace Steps

variable {h : Highlighter} {source : String} (steps : Steps h source)

theorem length_tokens_le : steps.tokens.length ≤ source.length := by
  have htiling := (Lexeme.scan_tiling (some h.policy.sigil) source).length_le
  rw [← lexemes, ← steps.pass.map_span, List.length_map, String.length_toList] at htiling
  exact htiling

/-- There are at most five diagnostics for a token. -/
theorem length_diagnostics_le : steps.diagnostics.length ≤ 5 * steps.tokens.length := by
  have hmalformed : (steps.tokens.filterMap Token.malformed?).length ≤ steps.tokens.length :=
    List.length_filterMap_le ..
  have hduplicates : steps.duplicates.length ≤ steps.tokens.length := by
    refine (Label.enumerates_duplicates steps.collect_eq).length_le ?_
    rintro i d ⟨label, _, hlabel, _⟩
    exact Label.lt_length_of_declaredAt? hlabel
  have hunresolved : (h.resolution steps.labels steps.tokens).2.length ≤ steps.tokens.length := by
    refine (Label.enumerates_unresolved none steps.tokens).length_le ?_
    rintro i d ⟨t, ht, _⟩
    exact (List.getElem?_eq_some_iff.mp ht).1
  have hfound : steps.found.length ≤ 2 * steps.tokens.length := by
    have hremarks := Directive.length_found_le steps.check_eq
    have hsame : (h.resolution steps.labels steps.tokens).1.length = steps.tokens.length := by
      have hspans := congrArg List.length
        (steps.map_span_resolution.trans steps.pass.map_span.symm)
      rwa [List.length_map, List.length_map] at hspans
    rwa [hsame] at hremarks
  simp only [diagnostics, List.length_append]
  omega

theorem dropped_le (version : Json) :
    (steps.stream version).dropped.natAbs ≤ steps.diagnostics.length := by
  have hlength : (Diagnostic.sort steps.diagnostics).length = steps.diagnostics.length :=
    (List.mergeSort_perm _ _).length_eq
  cases hcap : h.policy.cap with
  | none =>
    have hnone : h.cap = none := by rw [cap, hcap]; rfl
    simp [stream, Stream.emit, hnone]
  | some n =>
    have hsome : h.cap = some (n : Int) := by rw [cap, hcap]; rfl
    simp only [stream, Stream.emit, hsome, Option.elim_some, Stream.beyondCap, hlength]
    split <;> omega

/-- The tokens of a stream are presented with its labels. -/
theorem presented (hg : h.grammar.Sound) :
    ∀ t ∈ steps.checked, t.Presented h.grammar steps.labels := by
  intro t ht
  obtain ⟨i, hi⟩ := List.mem_iff_getElem?.mp ht
  obtain ⟨c, hc, _, ⟨_, rfl⟩ | ⟨_, rfl⟩⟩ := steps.exists_classified hi
  · exact .reference c
  · obtain ⟨_, _, hclass⟩ := (run_of_classified hg steps.classified_eq).exists_lexeme hc
    exact hclass.presented hg steps.labels

/-- The tokens that are long literals stand for the words of the document that are. -/
theorem exists_isLongLiteral_iff (hg : h.grammar.Sound) :
    (∃ t ∈ steps.checked, t.IsLongLiteral) ↔ HasLongLiteral (h.lexemes source) := by
  have hseen := seen_resolution hg steps.classified_eq steps.labels
  have htext {i : Nat} {l : Lexeme} {u : Token} (hl : (h.lexemes source)[i]? = some l)
      (hu : (h.resolution steps.labels steps.tokens).1[i]? = some u) :
      (Directive.mark h.grammar u).text = l.text := by
    obtain ⟨l', hl', hspan⟩ := Token.exists_lexeme_of_map_span steps.map_span_resolution hu
    cases hl.symm.trans hl'
    exact congrArg Span.text ((Directive.span_mark h.grammar u).trans hspan)
  rw [Directive.eq_map_mark_of_check steps.check_eq]
  constructor
  · rintro ⟨t, ht, hcat, v, hv, hlong⟩
    obtain ⟨u, hu, rfl⟩ := List.mem_map.mp ht
    obtain ⟨i, hi⟩ := List.mem_iff_getElem?.mp hu
    obtain ⟨l, hl, hul⟩ := Directive.exists_seen_lexeme hseen hi
    rw [Directive.category_mark] at hcat
    obtain ⟨w, hw⟩ := hul.equipped.value hcat
    exact ⟨l, List.mem_of_getElem? hl, ((hul.integer_iff w).mp ⟨hcat, hw⟩).1, v,
      htext hl hi ▸ hv, hlong⟩
  · rintro ⟨l, hmem, hkind, v, hv, hlong⟩
    obtain ⟨i, hl⟩ := List.mem_iff_getElem?.mp hmem
    obtain ⟨u, hu, hul⟩ := Directive.exists_seen hseen hl
    have hcat := ((hul.integer_iff v).mpr ⟨hkind, hv⟩).1
    rw [← Directive.category_mark h.grammar u] at hcat
    exact ⟨_, List.mem_map_of_mem (List.mem_of_getElem? hu), hcat, v, (htext hl hu).symm ▸ hv,
      hlong⟩

theorem range_within_of_mem {tokens : List Token}
    (hspan : tokens.map Token.span = (h.lexemes source).map Lexeme.span) {t : Token}
    (ht : t ∈ tokens) : t.range.Within (source.length + 1) := by
  obtain ⟨before, behind, hcover⟩ := exists_covering_of_mem hspan ht
  exact String.length_toList ▸ hcover.within

theorem diagnostic_within {d : Diagnostic} (hd : d ∈ steps.diagnostics) :
    d.range.Within (source.length + 1) := by
  obtain ⟨before, piece, behind, hcover⟩ := steps.exists_covering hd
  exact String.length_toList ▸ hcover.within

theorem label_within {label : Label} (hlabel : label ∈ steps.labels) :
    label.range.Within (source.length + 1) := by
  obtain ⟨i, hfirst, _⟩ := (Label.enumerates_labels steps.collect_eq).exists_place label hlabel
  obtain ⟨t, ht, _, hrange⟩ := Label.exists_of_declaredAt? hfirst
  exact hrange ▸ range_within_of_mem steps.pass.map_span (List.mem_of_getElem? ht)

/-- The integers of a stream are no larger than the document is long, up to a factor, but
    for the values of literals and what the caller puts into the version. -/
theorem within (hg : h.grammar.Sound) {version : Json} (hversion : version.hasOverlong = false) :
    (steps.stream version).Within (5 * source.length + 32) := by
  have hle : source.length + 1 ≤ 5 * source.length + 32 := by omega
  have hlabels : ∀ label ∈ steps.labels, label.range.Within (5 * source.length + 32) :=
    fun label hlabel => (steps.label_within hlabel).mono hle
  constructor
  · exact hversion
  · rw [steps.tokens_stream]
    intro t ht
    refine (steps.presented hg t ht).within ?_ hlabels ?_
    · exact (range_within_of_mem steps.map_span ht).mono hle
    · intro d hd bits hbits
      have hwidth := hg.bits_le hd bits hbits
      omega
  · intro d hd
    exact (steps.diagnostic_within (steps.mem_diagnostics_of_mem_stream hd)).mono hle
  · exact hlabels
  · have hdropped := steps.dropped_le version
    have hdiagnostics := steps.length_diagnostics_le
    have htokens := steps.length_tokens_le
    omega

end Steps

end Highlighter

end AsmHighlight
