-- SUMMARY: What a stream tells about the directives of a document and their operands.
import AsmHighlight.Proofs.Directive.Deserved
import AsmHighlight.Proofs.Highlighter.Places

/-!
# Directives

A stream shows the directives of a document, and what follows each of them on
its line. From this one can tell the remarks that are due
(`Directive.DueAt`), and they are the remarks of the stream, each once
(`directives_reported`).

Checking sees the tokens before its own annotations and after resolution. The
annotations change no category, no range and no value, so nothing that decides
about a remark.
-/

namespace AsmHighlight

namespace Directive

/-- The token is a keyword, and the grammar has the directive for its text. -/
structure IsKeyword (g : Grammar) (t : Token) (d : Directive) : Prop where
  category : t.category = .directiveKeyword
  text : t.text = "#" ++ d.name
  entry : g.directive? d.name = some d

theorem IsKeyword.unique {g : Grammar} {t : Token} {d e : Directive} (hd : IsKeyword g t d)
    (he : IsKeyword g t e) : d = e := by
  have hname : d.name = e.name := by
    have hchars := congrArg String.toList (hd.text.symm.trans he.text)
    exact String.toList_inj.mp (by simpa using hchars)
  have hentry := hd.entry
  rw [hname, he.entry] at hentry
  exact (Option.some.inj hentry).symm

/-- The tokens after place `i` on a line that are neither comments nor punctuation. -/
def operandsAfter (tokens : List Token) (i : Nat) (line : Int) : List Token :=
  (tokens.drop (i + 1)).filter fun u =>
    u.line = line ∧ u.category ≠ .comment ∧ u.category ≠ .punctuation

/-- A remark of this code on this range is due for the directive at place `i`. -/
def DueAt (g : Grammar) (tokens : List Token) (i : Nat) (code : Diagnostic.Code) (range : Range) :
    Prop :=
  ∃ t d, tokens[i]? = some t ∧ IsKeyword g t d ∧
    Deserves d t (operandsAfter tokens i t.line) code range

-- ---------------------------------------------------------------------------
-- Annotations do not matter
-- ---------------------------------------------------------------------------

section Mark

variable {g : Grammar}

theorem range_mark (g : Grammar) (t : Token) : (mark g t).range = t.range :=
  congrArg Span.range (span_mark g t)

theorem line_mark (g : Grammar) (t : Token) : (mark g t).line = t.line :=
  congrArg Range.line (range_mark g t)

/-- Operands deserve the same remarks with and without annotations. -/
theorem deserves_map_mark {d : Directive} {keyword : Token} {ops : List Token}
    {code : Diagnostic.Code} {range : Range} :
    Deserves d (mark g keyword) (ops.map (mark g)) code range ↔
      Deserves d keyword ops code range := by
  have hvalue {o : Token} (ho : o.category = .integerLiteral) : mark g o = o :=
    mark_of_category_ne (by rw [ho]; decide)
  cases ops with
  | nil =>
    constructor
    · intro h
      cases h
      rw [range_mark]
      exact .missing
    · intro h
      cases h
      rw [← range_mark g keyword]
      exact .missing
  | cons o more =>
    rw [List.map_cons, deserves_cons_iff (o := mark g o), deserves_cons_iff (o := o)]
    refine or_congr ⟨fun h => ?_, fun h => ?_⟩ ⟨?_, ?_⟩
    · cases h with
      | kind hvalid hkind =>
        rw [category_mark] at hvalid hkind
        rw [range_mark]
        exact .kind hvalid hkind
      | range hbits ho hv hout =>
        rw [category_mark] at ho
        rw [hvalue ho] at hv ⊢
        exact .range hbits ho hv hout
    · cases h with
      | kind hvalid hkind =>
        rw [← category_mark g o] at hvalid hkind
        rw [← range_mark g o]
        exact .kind hvalid hkind
      | range hbits ho hv hout =>
        rw [hvalue ho]
        exact .range hbits ho hv hout
    · rintro ⟨_, _, hmore, hcode, hrange⟩
      obtain ⟨first, rest, rfl, rfl, rfl⟩ := List.map_eq_cons_iff.mp hmore
      rw [List.getLastD_map, range_mark, range_mark] at hrange
      exact ⟨first, rest, rfl, hcode, hrange⟩
    · rintro ⟨first, rest, rfl, hcode, hrange⟩
      refine ⟨mark g first, rest.map (mark g), rfl, hcode, ?_⟩
      rw [List.getLastD_map, range_mark, range_mark, hrange]

theorem operandsAfter_map_mark {tokens : List Token} (horder : InOrder tokens) {i : Nat} {t : Token}
    (ht : tokens[i]? = some t) :
    operandsAfter (tokens.map (mark g)) i (mark g t).line =
      (operands t.line (tokens.drop (i + 1))).map (mark g) := by
  rw [operandsAfter, horder.operands_eq ht, ← List.map_drop, List.filter_map]
  congr 1
  apply List.filter_congr
  intro u _
  rw [Function.comp_apply, category_mark, line_mark, line_mark, isOperand]
  rw [Bool.eq_iff_iff]
  simp [and_comm]

end Mark

end Directive

namespace Highlighter

/-- What a stream tells about directives. -/
structure DirectivesReported (g : Grammar) (s : Stream) : Prop where
  /-- A keyword carries the name, the kind of literal and the width of its directive. -/
  annotated : ∀ t ∈ s.tokens, t.category = .directiveKeyword →
    ∃ d, Directive.IsKeyword g t d ∧
      t.attributes = [.directive d.name, .literalKind d.literalKind, .bitWidth d.bitWidth]
  /-- The remarks on directives are those that are due, and each is made once. -/
  reported : Directive.Exactly (fun code range => ∃ i, Directive.DueAt g s.tokens i code range)
    (s.diagnostics.filter fun r => Directive.isRemarkCode r.code)
  /-- A remark that is due is due for one directive only. -/
  due_once : ∀ i j code range, Directive.DueAt g s.tokens i code range →
    Directive.DueAt g s.tokens j code range → i = j

namespace Steps

variable {h : Highlighter} {source : String} (steps : Steps h source)

theorem inOrder_resolution : Directive.InOrder (h.resolution steps.labels steps.tokens).1 where
  starts := starts_increasing steps.map_span_resolution
  lines := by
    have hsorted := (Lexeme.scan_tiling (some h.policy.sigil) source).lines_sorted
    rw [← lexemes, ← steps.map_span_resolution, List.pairwise_map] at hsorted
    exact hsorted

/-- The keywords that checking sees are those that classification has found. -/
theorem exists_isKeyword {c : Token} (hc : c ∈ (h.resolution steps.labels steps.tokens).1)
    (hcat : c.category = .directiveKeyword) :
    ∃ d, Directive.IsKeyword h.grammar c d ∧ Directive.ofToken? h.grammar c = some d := by
  obtain ⟨t, ht, rfl | rfl⟩ := Label.mem_resolveFrom hc
  · obtain ⟨i, hi⟩ := List.mem_iff_getElem?.mp ht
    obtain ⟨l, _, hclass⟩ := steps.pass.exists_lexeme hi
    obtain ⟨d, hentry, htext, rfl⟩ := Token.eq_directive_of_category hclass hcat
    refine ⟨d, ⟨hcat, htext, hentry⟩, ?_⟩
    rw [Directive.ofToken?, if_pos hcat]
    exact hentry
  · rw [Label.category_reference] at hcat
    cases hcat

theorem isKeyword_mark_iff {c : Token} (hc : c ∈ (h.resolution steps.labels steps.tokens).1)
    {d : Directive} :
    Directive.IsKeyword h.grammar (Directive.mark h.grammar c) d ↔
      Directive.ofToken? h.grammar c = some d := by
  have htext : (Directive.mark h.grammar c).text = c.text :=
    congrArg Span.text (Directive.span_mark h.grammar c)
  constructor
  · rintro ⟨hcat, hd, hentry⟩
    rw [Directive.category_mark] at hcat
    obtain ⟨e, hkeyword, he⟩ := steps.exists_isKeyword hc hcat
    rw [he, hkeyword.unique ⟨hcat, htext.symm.trans hd, hentry⟩]
  · intro hd
    have hcat := (Directive.category_of_ofToken? hd).1
    obtain ⟨e, hkeyword, he⟩ := steps.exists_isKeyword hc hcat
    cases hd.symm.trans he
    refine ⟨?_, htext.trans hkeyword.text, hkeyword.entry⟩
    rw [Directive.category_mark, hcat]

/-- The stream shows the remarks to be due that checking has made. -/
theorem dueAt_iff {i : Nat} {code : Diagnostic.Code} {range : Range} :
    Directive.DueAt h.grammar steps.checked i code range ↔
      Directive.DeservesAt h.grammar (h.resolution steps.labels steps.tokens).1 i code range := by
  rw [Directive.eq_map_mark_of_check steps.check_eq]
  constructor
  · rintro ⟨_, d, ht, hkeyword, hdeserves⟩
    rw [List.getElem?_map] at ht
    obtain ⟨c, hc, rfl⟩ := Option.map_eq_some_iff.mp ht
    rw [Directive.operandsAfter_map_mark steps.inOrder_resolution hc,
      Directive.deserves_map_mark] at hdeserves
    exact ⟨c, d, hc, (steps.isKeyword_mark_iff (List.mem_of_getElem? hc)).mp hkeyword, hdeserves⟩
  · rintro ⟨c, d, hc, hd, hdeserves⟩
    refine ⟨Directive.mark h.grammar c, d, ?_, ?_, ?_⟩
    · rw [List.getElem?_map, hc, Option.map_some]
    · exact (steps.isKeyword_mark_iff (List.mem_of_getElem? hc)).mpr hd
    · rw [Directive.operandsAfter_map_mark steps.inOrder_resolution hc,
        Directive.deserves_map_mark]
      exact hdeserves

/-- The remarks on directives are what checking has found, in order of presentation. -/
theorem filter_isRemarkCode_perm (hcap : h.policy.cap = none) (version : Json) :
    ((steps.stream version).diagnostics.filter fun r => Directive.isRemarkCode r.code).Perm
      steps.found := by
  have hother {ds : List Diagnostic} {own : Diagnostic.Code} (hds : ∀ d ∈ ds, d.code = own)
      (hown : Directive.isRemarkCode own = false) :
      ds.filter (fun r => Directive.isRemarkCode r.code) = [] := by
    rw [List.filter_eq_nil_iff]
    intro d hd
    rw [hds d hd, hown]
    exact Bool.false_ne_true
  have hfound : steps.diagnostics.filter (fun r => Directive.isRemarkCode r.code) =
      steps.found := by
    rw [diagnostics, List.filter_append, List.filter_append, List.filter_append,
      hother (fun d hd => (steps.malformed_of_mem hd).1) rfl,
      hother (fun d hd => (steps.duplicate_of_mem hd).1) rfl,
      hother (fun d hd => (steps.unresolved_of_mem hd).1) rfl, List.nil_append]
    exact List.filter_eq_self.mpr fun d hd => steps.isRemarkCode_of_mem hd
  rw [steps.diagnostics_stream hcap, ← hfound]
  exact (List.mergeSort_perm _ _).filter _

theorem exists_annotation {t : Token} (ht : t ∈ steps.checked)
    (hcat : t.category = .directiveKeyword) :
    ∃ d, Directive.IsKeyword h.grammar t d ∧
      t.attributes = [.directive d.name, .literalKind d.literalKind, .bitWidth d.bitWidth] := by
  rw [Directive.eq_map_mark_of_check steps.check_eq] at ht
  obtain ⟨c, hc, rfl⟩ := List.mem_map.mp ht
  rw [Directive.category_mark] at hcat
  obtain ⟨d, _, hd⟩ := steps.exists_isKeyword hc hcat
  refine ⟨d, (steps.isKeyword_mark_iff hc).mpr hd, ?_⟩
  rw [Directive.mark, hd]
  rfl

end Steps

/-- With no cap on diagnostics, a stream makes exactly the remarks on directives that are
    due, and its keywords carry what the grammar says of them. -/
theorem directives_reported (h : Highlighter) (hcap : h.policy.cap = none) {source : String}
    {version : Json} {s : Stream} (hok : h.highlight source version = .ok s) :
    DirectivesReported h.grammar s := by
  obtain ⟨steps, rfl⟩ := highlight_eq_ok_iff.mp hok
  have horder := steps.inOrder_resolution
  constructor
  case annotated =>
    rw [steps.tokens_stream]
    intro t ht hcat
    exact steps.exists_annotation ht hcat
  case reported =>
    rw [steps.tokens_stream]
    have hfound := Directive.exactly_check horder steps.check_eq
    refine (hfound.perm (steps.filter_isRemarkCode_perm hcap version)).congr fun code range => ?_
    exact exists_congr fun i => steps.dueAt_iff.symm
  case due_once =>
    rw [steps.tokens_stream]
    intro i j code range hi hj
    exact Directive.eq_of_deservesAt horder (steps.dueAt_iff.mp hi) (steps.dueAt_iff.mp hj)

/-- The operand of a directive is a surplus operand of the directive before it. -/
theorem directives_reported_shared :
    ∃ s, standard.highlight "#d8 1, #d16 2 ;x" = .ok s ∧
      s.diagnostics.map (fun d => (d.code, d.range.start.column, d.range.stop.column)) =
        [(.operandSurplus, 8, 14)] ∧
      DirectivesReported .builtin s := by
  have hfound : (standard.highlight "#d8 1, #d16 2 ;x").toOption.map
      (fun s => s.diagnostics.map fun d => (d.code, d.range.start.column, d.range.stop.column)) =
        some [(.operandSurplus, 8, 14)] := by with_unfolding_all decide
  cases hok : standard.highlight "#d8 1, #d16 2 ;x" with
  | error fault => rw [hok] at hfound; cases hfound
  | ok s =>
    rw [hok] at hfound
    exact ⟨s, rfl, Option.some.inj hfound, directives_reported standard rfl hok⟩

end Highlighter

end AsmHighlight
