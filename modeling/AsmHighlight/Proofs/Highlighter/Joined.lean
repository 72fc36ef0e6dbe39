-- SUMMARY: A document of two parts on separate lines is highlighted part by part.
import AsmHighlight.Proofs.Highlighter.Relocated
import AsmHighlight.Proofs.Lexeme.Rescan

/-!
# Documents put together

Nothing that the highlighter keeps while it reads goes over a line break: a
comment or an unclosed string ends there, and so do the operands of a jump or a
directive. So the document of two texts with a line feed between them has the
lexemes, tokens and diagnostics of the first text and then those of the second,
which stand lower and further on (`Relocation.below`). The label table is the
only thing that the two share: it leaves out what the second text declares
again, and it tells the references of both texts where their labels are.

If the first text ends with CR, the line feed completes a pair. No lexeme stands
behind that CR, so nothing but the count of lines is different.
-/

namespace AsmHighlight

-- ---------------------------------------------------------------------------
-- Lexemes
-- ---------------------------------------------------------------------------

/-- What follows a text and a line feed goes down by their line ends and on by their
    characters. -/
def Relocation.below (text : String) : Relocation :=
  .move ((Text.lines (text ++ "\n")).length - 1) (text.length + 1)

theorem Position.after_lineFeed (p : Position) (cs rest : List Char) :
    p.after (cs ++ ['\n']) rest = (p.after cs ['\n']).nextLine := by
  rw [after_append]
  exact congrArg nextLine (after_congr (by simp) p cs)

/-- Reading a text and a line feed leads to where the next part starts. -/
theorem Position.start_after_lineFeed (text : String) (rest : List Char) :
    Position.start.after (text.toList ++ ['\n']) rest = (Relocation.below text).start .start := by
  have hsplits : ¬ SplitsPair (text.toList ++ ['\n']) [] := fun hs => by cases hs.2
  obtain ⟨done, current, hread⟩ := exists_reached .start hsplits
  have hlines : (Text.lines (text ++ "\n")).length = done.length + 1 := by
    have hlength := congrArg List.length hread.lines
    simpa [Text.lines, Text.splitLines] using hlength
  have hline := hread.line
  have hoffset := offset_after .start text.toList ['\n']
  rw [after_lineFeed] at hline ⊢
  simp only [Relocation.below, Relocation.move, nextLine, start, mk.injEq, hlines] at hline hoffset ⊢
  rw [String.length_toList] at hoffset
  exact ⟨by omega, trivial, by omega⟩

namespace Lexeme

theorem scanFrom_lineFeed (sigil : Option Char) (first : String) (rest : List Char) :
    scanFrom sigil .start (first.toList ++ '\n' :: rest) =
      scan sigil first ++ (scanFrom sigil .start rest).map (relocate (.below first)) := by
  have hbreak : AtBreak ('\n' :: rest) := by
    rintro _ ⟨⟩
    rfl
  rw [scanFrom_append sigil .start first.toList hbreak, scanFrom_blank (by decide)]
  refine congrArg (scan sigil first ++ ·) ?_
  have hstart : (Position.start.after first.toList ('\n' :: rest)).advance '\n' rest =
      (Relocation.below first).start .start := by
    rw [← Position.start_after_lineFeed first rest, Position.after_append]
    rfl
  rw [hstart]
  exact scanFrom_move ..

/-- The lexemes of the first text come first, and those of the second stand below. -/
theorem scan_joined (sigil : Option Char) (first second : String) :
    scan sigil (first ++ "\n" ++ second) =
      scan sigil first ++ (scan sigil second).map (relocate (.below first)) := by
  have htext : (first ++ "\n" ++ second).toList = first.toList ++ '\n' :: second.toList := by simp
  rw [scan, htext]
  exact scanFrom_lineFeed sigil first second.toList

/-- The second text starts on a line of its own. -/
theorem line_lt_of_mem_joined {sigil : Option Char} {first second : String} {l q : Lexeme}
    (hl : l ∈ scan sigil first) (hq : q ∈ scan sigil second) :
    l.line < (q.relocate (.below first)).line := by
  have hle := line_le_after_of_mem_scanFrom hl ['\n']
  have hge := (scan_tiling sigil second).line_ge q.span (List.mem_map_of_mem hq)
  have hbelow := congrArg Position.line (Position.start_after_lineFeed first [])
  rw [Position.after_lineFeed] at hbelow
  simp only [Relocation.below, Relocation.move, Position.nextLine, Position.start, Lexeme.line,
    Lexeme.relocate, Range.relocate, Range.line, Lexeme.span] at hle hge hbelow ⊢
  omega

end Lexeme

-- ---------------------------------------------------------------------------
-- Steps
-- ---------------------------------------------------------------------------

namespace Highlighter

variable {h : Highlighter} {first second : String}

theorem map_span_relocate {ρ : Relocation} {lexemes : List Lexeme} {tokens : List Token}
    (hspan : tokens.map Token.span = lexemes.map Lexeme.span) :
    (tokens.map (Token.relocate ρ)).map Token.span =
      (lexemes.map (Lexeme.relocate ρ)).map Lexeme.span := by
  have hmoved := congrArg (List.map fun s : Span => (⟨s.text, s.range.relocate ρ⟩ : Span)) hspan
  rw [List.map_map, List.map_map] at hmoved ⊢
  exact hmoved

theorem lines_ne_of_map_span {tokens more : List Token}
    (htokens : tokens.map Token.span = (h.lexemes first).map Lexeme.span)
    (hmore : more.map Token.span =
      ((h.lexemes second).map (Lexeme.relocate (.below first))).map Lexeme.span) :
    ∀ t ∈ tokens, ∀ u ∈ more, t.line ≠ u.line := by
  intro t ht u hu
  obtain ⟨l, hl, hspan⟩ := List.mem_map.mp (htokens ▸ List.mem_map_of_mem ht)
  obtain ⟨_, hmem, hspan'⟩ := List.mem_map.mp (hmore ▸ List.mem_map_of_mem hu)
  obtain ⟨q, hq, rfl⟩ := List.mem_map.mp hmem
  rw [Token.line_eq_of_span_eq hspan.symm, Token.line_eq_of_span_eq hspan'.symm]
  exact Int.ne_of_lt (Lexeme.line_lt_of_mem_joined hl hq)

/-- Each text is classified on its own. -/
theorem classified_joined (h : Highlighter) (first second : String) :
    h.classified (first ++ "\n" ++ second) = do
      let tokens ← h.classified first
      let more ← h.classified second
      return tokens ++ more.map (Token.relocate (.below first)) := by
  have hlines : ∀ l ∈ h.lexemes first,
      ∀ q ∈ (h.lexemes second).map (Lexeme.relocate (.below first)), l.line ≠ q.line := by
    intro l hl _ hmem
    obtain ⟨q, hq, rfl⟩ := List.mem_map.mp hmem
    exact Int.ne_of_lt (Lexeme.line_lt_of_mem_joined hl hq)
  have hmore : Token.classifyFrom h.grammar h.policy.caseSensitive none
      ((h.lexemes second).map (Lexeme.relocate (.below first))) = _ :=
    Token.classifyFrom_relocate (.below first) none (h.lexemes second)
  have hlexemes : h.lexemes (first ++ "\n" ++ second) =
      h.lexemes first ++ (h.lexemes second).map (Lexeme.relocate (.below first)) :=
    Lexeme.scan_joined ..
  rw [classified, hlexemes, Token.classifyAll, Token.classifyFrom_append (by simp) hlines, hmore]
  simp only [classified, Token.classifyAll]
  cases Token.classifyFrom h.grammar h.policy.caseSensitive none (h.lexemes first) with
  | error cause => rfl
  | ok tokens =>
    cases Token.classifyFrom h.grammar h.policy.caseSensitive none (h.lexemes second) with
    | error cause => rfl
    | ok more => rfl

/-- Each text is checked on its own. -/
theorem check_joined {tokens more : List Token}
    (htokens : tokens.map Token.span = (h.lexemes first).map Lexeme.span)
    (hmore : more.map Token.span = (h.lexemes second).map Lexeme.span)
    (labels labels₁ labels₂ : Label.Table) :
    (Directive.check h.grammar
        (h.resolution labels (tokens ++ more.map (Token.relocate (.below first)))).1).map
        (Prod.map (List.map Token.bare) id) = do
      let checked ← Directive.check h.grammar (h.resolution labels₁ tokens).1
      let others ← Directive.check h.grammar (h.resolution labels₂ more).1
      return (checked.1.map Token.bare ++ (others.1.map (Token.relocate (.below first))).map Token.bare,
        checked.2 ++ others.2.map (Diagnostic.relocate (.below first))) := by
  have hmoved : (more.map (Token.relocate (.below first))).map Token.span =
      ((h.lexemes second).map (Lexeme.relocate (.below first))).map Lexeme.span :=
    map_span_relocate hmore
  have hresolved : (h.resolution labels (tokens ++ more.map (Token.relocate (.below first)))).1 =
      (h.resolution labels tokens).1 ++
        (h.resolution labels (more.map (Token.relocate (.below first)))).1 :=
    Label.resolveFrom_append (by simp) (lines_ne_of_map_span htokens hmoved)
  have hspan (labels : Label.Table) (tokens : List Token) :
      ((h.resolution labels tokens).1.map Token.bare).map Token.span = tokens.map Token.span := by
    rw [Token.map_span_bare]
    exact Label.map_span_resolveFrom none tokens
  have hapart := lines_ne_of_map_span ((hspan labels tokens).trans htokens)
    ((hspan labels (more.map (Token.relocate (.below first)))).trans hmoved)
  have hfirst : (h.resolution labels tokens).1.map Token.bare =
      (h.resolution labels₁ tokens).1.map Token.bare :=
    Label.map_bare_resolveFrom labels labels₁ none tokens
  have hsecond : (h.resolution labels (more.map (Token.relocate (.below first)))).1.map Token.bare =
      ((h.resolution labels₂ more).1.map (Token.relocate (.below first))).map Token.bare := by
    have hrelocated := congrArg Prod.fst (h.resolution_relocate (.below first) labels₂ more)
    rw [Prod.map_fst] at hrelocated
    rw [← hrelocated]
    exact Label.map_bare_resolveFrom labels _ none _
  rw [Directive.map_bare_check, hresolved, List.map_append, Directive.check_append hapart, hfirst,
    hsecond, ← Directive.map_bare_check, ← Directive.map_bare_check,
    (Directive.moves_relocate _).check_map]
  cases Directive.check h.grammar (h.resolution labels₁ tokens).1 with
  | error fault => rfl
  | ok checked =>
    cases Directive.check h.grammar (h.resolution labels₂ more).1 with
    | error fault => rfl
    | ok others => rfl

/-- The document is highlighted exactly when both texts are. -/
theorem exists_highlight_joined_iff (version : Json) :
    (∃ s, h.highlight (first ++ "\n" ++ second) version = .ok s) ↔
      (∃ s, h.highlight first version = .ok s) ∧ ∃ s, h.highlight second version = .ok s := by
  have hsteps (source : String) :
      (∃ s, h.highlight source version = .ok s) ↔ Nonempty (Steps h source) := by
    simp only [highlight_eq_ok_iff]
    exact ⟨fun ⟨_, steps, _⟩ => ⟨steps⟩, fun ⟨steps⟩ => ⟨_, steps, rfl⟩⟩
  rw [hsteps, hsteps, hsteps]
  constructor
  · rintro ⟨steps⟩
    have hclassified := steps.classified_eq
    rw [classified_joined] at hclassified
    obtain ⟨tokens, htokens, hclassified⟩ := Except.bind_eq_ok_iff.mp hclassified
    obtain ⟨more, hmore, hclassified⟩ := Except.bind_eq_ok_iff.mp hclassified
    obtain ⟨collected, hcollected⟩ := exists_collect_eq_ok htokens
    obtain ⟨collected', hcollected'⟩ := exists_collect_eq_ok hmore
    have hcheck := check_joined (Token.map_span_classifyFrom htokens)
      (Token.map_span_classifyFrom hmore) steps.labels collected.1 collected'.1
    rw [Except.ok.inj hclassified, steps.check_eq] at hcheck
    obtain ⟨checked, hchecked, hcheck⟩ := Except.bind_eq_ok_iff.mp hcheck.symm
    obtain ⟨others, hothers, _⟩ := Except.bind_eq_ok_iff.mp hcheck
    exact ⟨⟨_, _, _, _, _, htokens, hcollected, hchecked⟩, ⟨_, _, _, _, _, hmore, hcollected', hothers⟩⟩
  · rintro ⟨⟨steps₁⟩, ⟨steps₂⟩⟩
    have hclassified : h.classified (first ++ "\n" ++ second) =
        .ok (steps₁.tokens ++ steps₂.tokens.map (Token.relocate (.below first))) := by
      rw [classified_joined, steps₁.classified_eq, steps₂.classified_eq]
      rfl
    obtain ⟨collected, hcollected⟩ := exists_collect_eq_ok hclassified
    have hcheck := check_joined steps₁.pass.map_span steps₂.pass.map_span collected.1 steps₁.labels
      steps₂.labels
    rw [steps₁.check_eq, steps₂.check_eq] at hcheck
    obtain ⟨checked, hchecked, _⟩ := Except.map_eq_ok_iff.mp hcheck
    exact ⟨⟨_, _, _, _, _, hclassified, hcollected, hchecked⟩⟩

end Highlighter

-- ---------------------------------------------------------------------------
-- Results
-- ---------------------------------------------------------------------------

/-- The diagnostic is found on its line, whatever the rest of the document says. -/
def Diagnostic.isLocal (d : Diagnostic) : Bool :=
  d.code = .malformedLexeme || Directive.isRemarkCode d.code

theorem Relocation.keepsOrder_below (text : String) (r s : Range) : (below text).KeepsOrder r s :=
  ⟨by simp [below, move], by simp [below, move]⟩

/-- Two parts are found again by what tells them apart. -/
theorem Diagnostic.filter_of_parts {p : Diagnostic → Bool} {a b c d : List Diagnostic}
    (hac : ∀ x ∈ a ++ c, p x = true) (hbd : ∀ x ∈ b ++ d, p x = false) :
    ((a ++ b) ++ (c ++ d)).filter p = a ++ c ∧
      ((a ++ b) ++ (c ++ d)).filter (fun x => !p x) = b ++ d := by
  have hkept {xs : List Diagnostic} (h : ∀ x ∈ xs, p x = true) :
      xs.filter p = xs ∧ xs.filter (fun x => !p x) = [] :=
    ⟨List.filter_eq_self.mpr h, List.filter_eq_nil_iff.mpr fun x hx => by simp [h x hx]⟩
  have hdropped {xs : List Diagnostic} (h : ∀ x ∈ xs, p x = false) :
      xs.filter p = [] ∧ xs.filter (fun x => !p x) = xs :=
    ⟨List.filter_eq_nil_iff.mpr fun x hx => by simp [h x hx],
      List.filter_eq_self.mpr fun x hx => by simp [h x hx]⟩
  obtain ⟨ha, hc⟩ := List.forall_mem_append.mp hac
  obtain ⟨hb, hd⟩ := List.forall_mem_append.mp hbd
  simp only [List.filter_append, hkept ha, hkept hc, hdropped hb, hdropped hd, List.append_nil,
    List.nil_append, and_self]

namespace Highlighter

variable {h : Highlighter} {first second : String}

namespace Steps

theorem filter_isLocal {source : String} (steps : Steps h source) :
    steps.diagnostics.filter Diagnostic.isLocal =
      steps.tokens.filterMap Token.malformed? ++ steps.found := by
  have hmalformed : (steps.tokens.filterMap Token.malformed?).filter Diagnostic.isLocal =
      steps.tokens.filterMap Token.malformed? := by
    refine List.filter_eq_self.mpr fun d hd => ?_
    simp [Diagnostic.isLocal, (steps.malformed_of_mem hd).1]
  have hduplicates : steps.duplicates.filter Diagnostic.isLocal = [] := by
    refine List.filter_eq_nil_iff.mpr fun d hd => ?_
    rw [Diagnostic.isLocal, (steps.duplicate_of_mem hd).1]
    decide
  have hunresolved : (h.resolution steps.labels steps.tokens).2.filter Diagnostic.isLocal = [] := by
    refine List.filter_eq_nil_iff.mpr fun d hd => ?_
    rw [Diagnostic.isLocal, (steps.unresolved_of_mem hd).1]
    decide
  have hfound : steps.found.filter Diagnostic.isLocal = steps.found := by
    refine List.filter_eq_self.mpr fun d hd => ?_
    simp [Diagnostic.isLocal, steps.isRemarkCode_of_mem hd]
  rw [diagnostics, List.filter_append, List.filter_append, List.filter_append, hmalformed,
    hduplicates, hunresolved, hfound, List.append_nil, List.append_nil]

/-- Every diagnostic starts inside the document. -/
theorem start_inside_of_mem {source : String} (steps : Steps h source) {d : Diagnostic}
    (hd : d ∈ steps.diagnostics) :
    0 ≤ d.range.start.offset ∧ d.range.start.offset < source.length := by
  obtain ⟨_, hmem, hstart⟩ := (steps.spans_of_mem hd).start
  obtain ⟨l, hl, rfl⟩ := List.mem_map.mp hmem
  have hinside := (Lexeme.scan_tiling _ source).tiles.inside l.span (List.mem_map_of_mem hl)
  rw [hstart]
  exact ⟨hinside.1, Int.lt_of_lt_of_le hinside.2.1 hinside.2.2⟩

variable (steps₁ : Steps h first) (steps₂ : Steps h second)
  (steps : Steps h (first ++ "\n" ++ second))

theorem tokens_joined :
    steps.tokens = steps₁.tokens ++ steps₂.tokens.map (Token.relocate (.below first)) := by
  have hclassified := classified_joined h first second
  rw [steps.classified_eq, steps₁.classified_eq, steps₂.classified_eq] at hclassified
  exact Except.ok.inj hclassified

theorem checked_joined :
    steps.checked.map Token.bare = steps₁.checked.map Token.bare ++
        (steps₂.checked.map (Token.relocate (.below first))).map Token.bare ∧
      steps.found = steps₁.found ++ steps₂.found.map (Diagnostic.relocate (.below first)) := by
  have hcheck := check_joined steps₁.pass.map_span steps₂.pass.map_span steps.labels steps₁.labels
    steps₂.labels
  rw [← tokens_joined steps₁ steps₂ steps, steps.check_eq, steps₁.check_eq, steps₂.check_eq] at hcheck
  exact Prod.ext_iff.mp (Except.ok.inj hcheck)

theorem labels_joined :
    steps.labels = steps₁.labels ++
      steps₁.labels.newTo (steps₂.labels.map (Label.relocate (.below first))) := by
  have hmoved :=
    Label.collectFrom_relocate (Label.sameDuplicateHints_none (.below first)) [] steps₂.tokens
  rw [← Label.collect, steps₂.collect_eq] at hmoved
  obtain ⟨⟨labels, duplicates⟩, hcollect, hpair⟩ := Except.map_eq_ok_iff.mp hmoved
  have hlabels : labels = steps₂.labels.map (Label.relocate (.below first)) :=
    congrArg Prod.fst hpair
  have hdeclared := Label.eq_declareAll_of_collectFrom steps.collect_eq
  rw [tokens_joined steps₁ steps₂ steps, List.filterMap_append, Label.Table.declareAll,
    List.foldl_append, ← Label.Table.declareAll, ← Label.Table.declareAll,
    ← Label.eq_declareAll_of_collectFrom steps₁.collect_eq, Label.Table.declareAll_eq_append] at hdeclared
  rw [hdeclared, ← hlabels, Label.eq_declareAll_of_collectFrom hcollect]
  rfl

theorem diagnostics_joined (hcap : h.policy.cap = none) (version : Json) :
    (steps.stream version).diagnostics.filter Diagnostic.isLocal =
      (steps₁.stream version).diagnostics.filter Diagnostic.isLocal ++
        ((steps₂.stream version).diagnostics.filter Diagnostic.isLocal).map
          (Diagnostic.relocate (.below first)) := by
  have hlocal : steps.diagnostics.filter Diagnostic.isLocal =
      (steps₁.tokens.filterMap Token.malformed? ++
          (steps₂.tokens.filterMap Token.malformed?).map (Diagnostic.relocate (.below first))) ++
        (steps₁.found ++ steps₂.found.map (Diagnostic.relocate (.below first))) := by
    rw [steps.filter_isLocal, tokens_joined steps₁ steps₂ steps,
      (checked_joined steps₁ steps₂ steps).2, List.filterMap_append,
      Token.filterMap_malformed?_relocate]
  have hfirst : ∀ d ∈ steps₁.tokens.filterMap Token.malformed? ++ steps₁.found,
      decide (d.range.start.offset < first.length + 1) = true := by
    rw [← steps₁.filter_isLocal]
    intro d hd
    have hinside := steps₁.start_inside_of_mem (List.mem_of_mem_filter hd)
    exact decide_eq_true (by omega)
  have hsecond : ∀ d ∈ (steps₂.tokens.filterMap Token.malformed?).map
        (Diagnostic.relocate (.below first)) ++ steps₂.found.map (Diagnostic.relocate (.below first)),
      decide (d.range.start.offset < first.length + 1) = false := by
    rw [← List.map_append, ← steps₂.filter_isLocal]
    intro _ hmem
    obtain ⟨d, hd, rfl⟩ := List.mem_map.mp hmem
    have hinside := steps₂.start_inside_of_mem (List.mem_of_mem_filter hd)
    refine decide_eq_false ?_
    simp only [Diagnostic.relocate, Range.relocate, Relocation.below, Relocation.move]
    omega
  obtain ⟨hfront, hback⟩ := Diagnostic.filter_of_parts hfirst hsecond
  rw [steps.diagnostics_stream hcap, steps₁.diagnostics_stream hcap, steps₂.diagnostics_stream hcap,
    Diagnostic.filter_sort_eq, Diagnostic.filter_sort_eq, Diagnostic.filter_sort_eq, hlocal,
    Diagnostic.sort_eq_append (first.length + 1), hfront, hback, ← steps₁.filter_isLocal,
    ← List.map_append, ← steps₂.filter_isLocal]
  congr 1
  exact Diagnostic.sort_relocate (fun r _ s _ => Relocation.keepsOrder_below first r s)
    fun d hd => steps₂.spans_of_mem (List.mem_of_mem_filter hd)

end Steps

/-- A stream is put together from the streams of two texts, of which the second is moved. -/
structure Joins (ρ : Relocation) (s₁ s₂ s : Stream) : Prop where
  /-- The tokens are those of the first text and then those of the second, but for what the
      references know of their labels. -/
  tokens : s.tokens.map Token.bare =
    s₁.tokens.map Token.bare ++ (s₂.tokens.map (Token.relocate ρ)).map Token.bare
  /-- So are the diagnostics on invalid tokens and on directives. -/
  diagnostics : s.diagnostics.filter Diagnostic.isLocal =
    s₁.diagnostics.filter Diagnostic.isLocal ++
      (s₂.diagnostics.filter Diagnostic.isLocal).map (Diagnostic.relocate ρ)
  /-- The second text adds the labels whose names the first does not declare. -/
  labels : s.labels = s₁.labels ++ s₁.labels.newTo (s₂.labels.map (Label.relocate ρ))

/-- With no cap on diagnostics, two texts with a line feed between them fail to be
    highlighted exactly when one of them does, and else are highlighted one by one. -/
theorem highlight_joined (h : Highlighter) (hcap : h.policy.cap = none) (first second : String)
    (version : Json) :
    ((∃ fault, h.highlight (first ++ "\n" ++ second) version = .error fault) ↔
      (∃ fault, h.highlight first version = .error fault) ∨
        ∃ fault, h.highlight second version = .error fault) ∧
    ∀ s₁ s₂ s, h.highlight first version = .ok s₁ → h.highlight second version = .ok s₂ →
      h.highlight (first ++ "\n" ++ second) version = .ok s → Joins (.below first) s₁ s₂ s := by
  constructor
  · have hreturns := @exists_highlight_joined_iff h first second version
    rw [Except.exists_ok_iff, Except.exists_ok_iff, Except.exists_ok_iff, ← not_or] at hreturns
    exact not_iff_not.mp hreturns
  · intro s₁ s₂ s hfirst hsecond hjoined
    obtain ⟨steps₁, rfl⟩ := highlight_eq_ok_iff.mp hfirst
    obtain ⟨steps₂, rfl⟩ := highlight_eq_ok_iff.mp hsecond
    obtain ⟨steps, rfl⟩ := highlight_eq_ok_iff.mp hjoined
    refine ⟨?_, Steps.diagnostics_joined steps₁ steps₂ steps hcap version,
      Steps.labels_joined steps₁ steps₂ steps⟩
    rw [steps.tokens_stream, steps₁.tokens_stream, steps₂.tokens_stream]
    exact (Steps.checked_joined steps₁ steps₂ steps).1

/-- The first text ends in an escape and a CR that the line feed completes to a pair; the
    second repeats a label, jumps to it and lacks an operand. -/
theorem highlight_joined_pair : ∃ s₁ s₂ s, standard.highlight ".a jp \"x\\\r" = .ok s₁ ∧
    standard.highlight ".a jp a\n#d8" = .ok s₂ ∧
    standard.highlight (".a jp \"x\\\r" ++ "\n" ++ ".a jp a\n#d8") = .ok s ∧
    Joins (.below ".a jp \"x\\\r") s₁ s₂ s := by
  have hjoined := highlight_joined standard rfl ".a jp \"x\\\r" ".a jp a\n#d8" .null
  have hfirst : (standard.highlight ".a jp \"x\\\r").isOk = true := by with_unfolding_all decide
  have hsecond : (standard.highlight ".a jp a\n#d8").isOk = true := by with_unfolding_all decide
  obtain ⟨s₁, hs₁⟩ := Except.exists_eq_ok_of_isOk hfirst
  obtain ⟨s₂, hs₂⟩ := Except.exists_eq_ok_of_isOk hsecond
  have hnone : ¬ ∃ fault, standard.highlight (".a jp \"x\\\r" ++ "\n" ++ ".a jp a\n#d8") =
      .error fault := by
    rw [hjoined.1, hs₁, hs₂]
    simp
  obtain ⟨s, hs⟩ := Except.exists_ok_iff.mpr hnone
  exact ⟨s₁, s₂, s, hs₁, hs₂, hs, hjoined.2 s₁ s₂ s hs₁ hs₂ hs⟩

end Highlighter

end AsmHighlight
