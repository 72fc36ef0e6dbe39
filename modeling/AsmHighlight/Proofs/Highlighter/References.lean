-- SUMMARY: Which tokens of a highlighted document are label references, and what is said of each.
import AsmHighlight.Proofs.Highlighter.Places
import AsmHighlight.Proofs.Stream.Semantic

/-!
# References

Whether a word is the operand of a jump is decided twice: classification keeps
it from being taken for a mnemonic or a register, and resolution makes a
reference of it. The two agree, and what they agree on can be read off the
stream (`labelReference_iff`).

What becomes of a reference shows in three places: its own attributes, the
diagnostics and the semantic tokens. They tell the same
(`references_reported`).
-/

namespace AsmHighlight.Highlighter

/-- A name stands at place `i`, right after a jump on its line. -/
structure NameAfterJump (g : Grammar) (caseSensitive : Bool) (lexemes : List Lexeme)
    (tokens : List Token) (i : Nat) (t : Token) : Prop where
  word : ∃ l, lexemes[i]? = some l ∧ l.kind = .word
  name : Literal.isNameChars t.text.toList = true
  jump : ∃ j p, i = j + 1 ∧ tokens[j]? = some p ∧ p.line = t.line ∧ p.category = .mnemonic ∧
    g.isJump caseSensitive p.text = true

namespace Steps

variable {h : Highlighter} {source : String} (steps : Steps h source) {i : Nat} {t : Token}

-- ---------------------------------------------------------------------------
-- Jump operands
-- ---------------------------------------------------------------------------

/-- The steps after classification make no jump and take none away. -/
theorem exists_jump_iff {line : Int} :
    (∃ p, steps.checked[i]? = some p ∧ p.line = line ∧
        p.isJump h.grammar h.policy.caseSensitive = true) ↔
      ∃ p, steps.tokens[i]? = some p ∧ p.line = line ∧
        p.isJump h.grammar h.policy.caseSensitive = true := by
  rw [getElem?_checked]
  cases steps.tokens[i]? with
  | none => simp
  | some c =>
    simp only [Option.map_some, Option.some.injEq, exists_eq_left']
    split
    next hop =>
      have hcat := steps.category_of_isOperandAt hop
      simp [Token.isJump, Label.category_reference, hcat]
    next =>
      have hspan := Directive.span_mark h.grammar c
      have htext : (Directive.mark h.grammar c).text = c.text := congrArg Span.text hspan
      have hline : (Directive.mark h.grammar c).line = c.line :=
        congrArg (fun s => s.range.line) hspan
      rw [Token.isJump, Token.isJump, Directive.category_mark, htext, hline]

/-- The jump operands of classification are the names that stand after a jump in the end. -/
theorem isOperandAt_iff {c : Token} (hc : steps.tokens[i]? = some c) (hspan : t.span = c.span) :
    steps.isOperandAt i c = true ↔
      NameAfterJump h.grammar h.policy.caseSensitive (h.lexemes source) steps.checked i t := by
  obtain ⟨l, hl, hclass⟩ := steps.pass.exists_lexeme hc
  have hspan : t.span = l.span := hspan.trans (Token.span_of_classify hclass)
  have htext : t.text = l.text := congrArg Span.text hspan
  have hline : t.line = l.line := Token.line_eq_of_span_eq hspan
  rw [isOperandAt, Label.isJumpOperand_iff steps.pass hl hc, Token.any_contextAt_iff, ← htext,
    ← hline]
  constructor
  · rintro ⟨hkind, hname, j, p, hi, hp⟩
    obtain ⟨p, hp, hpline, hjump⟩ := steps.exists_jump_iff.mpr ⟨p, hp⟩
    simp only [Token.isJump, Bool.and_eq_true, beq_iff_eq] at hjump
    exact ⟨⟨l, hl, hkind⟩, hname, j, p, hi, hp, hpline, hjump⟩
  · rintro ⟨⟨l', hl', hkind⟩, hname, j, p, hi, hp, hpline, hjump⟩
    obtain rfl : l = l' := Option.some.inj (hl.symm.trans hl')
    have hjump : p.isJump h.grammar h.policy.caseSensitive = true := by
      simpa [Token.isJump] using hjump
    obtain ⟨p, hp⟩ := steps.exists_jump_iff.mp ⟨p, hp, hpline, hjump⟩
    exact ⟨hkind, hname, j, p, hi, hp⟩

/-- A reference in the stream is made of a jump operand. -/
theorem exists_operand_of_category (ht : steps.checked[i]? = some t)
    (hcat : t.category = .labelReference) :
    ∃ c, steps.tokens[i]? = some c ∧ steps.isOperandAt i c = true ∧
      t = Label.reference steps.labels c := by
  obtain ⟨c, hc, _, ⟨hop, rfl⟩ | ⟨_, rfl⟩⟩ := steps.exists_classified ht
  · exact ⟨c, hc, hop, rfl⟩
  · obtain ⟨l, _, hclass⟩ := steps.pass.exists_lexeme hc
    rw [Directive.category_mark] at hcat
    exact absurd hcat (Token.category_ne_labelReference hclass)

theorem category_eq_labelReference_iff (ht : steps.checked[i]? = some t) :
    t.category = .labelReference ↔
      NameAfterJump h.grammar h.policy.caseSensitive (h.lexemes source) steps.checked i t := by
  constructor
  · intro hcat
    obtain ⟨c, hc, hop, rfl⟩ := steps.exists_operand_of_category ht hcat
    exact (steps.isOperandAt_iff hc (Label.span_reference ..)).mp hop
  · intro hafter
    obtain ⟨c, hc, hspan, ⟨_, rfl⟩ | ⟨hop, _⟩⟩ := steps.exists_classified ht
    · exact Label.category_reference ..
    · rw [(steps.isOperandAt_iff hc hspan).mpr hafter] at hop
      cases hop

end Steps

/-- A token is a label reference exactly when it is a name right after a jump; such a
    name is never anything else, and the reference carries it. -/
theorem labelReference_iff (h : Highlighter) {source : String} {version : Json} {s : Stream}
    (hok : h.highlight source version = .ok s) :
    s.tokens.map Token.span = (h.lexemes source).map Lexeme.span ∧
    ∀ (i : Nat) (t : Token), s.tokens[i]? = some t →
      (t.category = .labelReference ↔
        NameAfterJump h.grammar h.policy.caseSensitive (h.lexemes source) s.tokens i t) ∧
      (NameAfterJump h.grammar h.policy.caseSensitive (h.lexemes source) s.tokens i t →
        t.category ∉ [.mnemonic, .register, .identifier] ∧ t.name? = some t.text ∧
          t.text ≠ "") := by
  obtain ⟨steps, rfl⟩ := highlight_eq_ok_iff.mp hok
  rw [steps.tokens_stream]
  refine ⟨steps.map_span, fun i t ht => ?_⟩
  have hiff := steps.category_eq_labelReference_iff ht
  refine ⟨hiff, fun hafter => ?_⟩
  have hcat := hiff.mpr hafter
  obtain ⟨c, _, _, rfl⟩ := steps.exists_operand_of_category ht hcat
  refine ⟨by rw [hcat]; decide, ?_, ?_⟩
  · rw [Label.name?_reference, Label.text_reference]
  · intro hempty
    have hname := hafter.name
    rw [hempty] at hname
    cases hname

/-- In a chain of jumps every other one is the operand of the one before, and here the
    second is reported as an unknown label. -/
theorem labelReference_iff_chain :
    ∃ s, standard.highlight "jp JP jp\tx\n.x: jp 1 x\njp" = .ok s ∧
      s.diagnostics.map (fun d => (d.code, d.range.start.column)) = [(.unresolvedReference, 4)] ∧
      ∀ (i : Nat) (t : Token), s.tokens[i]? = some t →
        (t.category = .labelReference ↔ NameAfterJump .builtin false
          (standard.lexemes "jp JP jp\tx\n.x: jp 1 x\njp") s.tokens i t) := by
  have hfound : (standard.highlight "jp JP jp\tx\n.x: jp 1 x\njp").toOption.map
      (fun s => s.diagnostics.map fun d => (d.code, d.range.start.column)) =
        some [(.unresolvedReference, 4)] := by with_unfolding_all decide
  cases hok : standard.highlight "jp JP jp\tx\n.x: jp 1 x\njp" with
  | error fault => rw [hok] at hfound; cases hfound
  | ok s =>
    rw [hok] at hfound
    refine ⟨s, rfl, Option.some.inj hfound, fun i t ht => ?_⟩
    exact ((labelReference_iff standard hok).2 i t ht).1

-- ---------------------------------------------------------------------------
-- Reports
-- ---------------------------------------------------------------------------

/-- What a stream tells about a reference. -/
structure ReferenceReported (severity : Severity) (s : Stream) (t : Token) : Prop where
  /-- A reference is resolved if its label is declared anywhere. -/
  resolved_iff : t.isResolved = true ↔ ∃ u ∈ s.tokens, Label.declaredName? u = some t.text
  /-- It then leads to the first declaration, as the label table has it. -/
  declared : t.isResolved = true → ∃ i label, Label.FirstAt s.tokens i label ∧
    label.name = t.text ∧ t.declaration? = some label.range ∧
      s.labels.lookup t.text = some label
  /-- If not, it leads nowhere, and exactly one diagnostic says so. -/
  undeclared : t.isResolved = false → t.declaration? = none ∧
    ∃ d, s.diagnostics.filter (fun d => d.code = .unresolvedReference ∧ d.range = t.range) = [d] ∧
      d.severity = severity

namespace Steps

variable {h : Highlighter} {source : String} (steps : Steps h source) {i : Nat} {c : Token}

theorem firstAt_checked {label : Label} :
    Label.FirstAt steps.checked i label ↔ Label.FirstAt steps.tokens i label := by
  simp only [Label.FirstAt, declaredAt?_checked]

/-- The table has a name exactly when some token declares it. -/
theorem isSome_lookup_iff {name : String} :
    (steps.labels.lookup name).isSome = true ↔
      ∃ u ∈ steps.checked, Label.declaredName? u = some name := by
  rw [← Label.exists_declaredAt?_iff, Option.isSome_iff_ne_none, ne_eq,
    Label.lookup_eq_none_iff steps.collect_eq]
  simp only [declaredAt?_checked, not_forall, not_not, exists_prop]

/-- Tokens at different places have different ranges. -/
theorem range_eq_iff {j : Nat} {u : Token} (hc : steps.tokens[i]? = some c)
    (hu : steps.tokens[j]? = some u) : u.range = c.range ↔ j = i := by
  constructor
  · intro hrange
    rcases Nat.lt_trichotomy j i with hji | hji | hij
    · have hlt := steps.start_lt hji hu hc
      rw [hrange] at hlt
      exact absurd hlt (Int.lt_irrefl _)
    · exact hji
    · have hlt := steps.start_lt hij hc hu
      rw [hrange] at hlt
      exact absurd hlt (Int.lt_irrefl _)
  · rintro rfl
    rw [Option.some.inj (hu.symm.trans hc)]

/-- An unknown reference has exactly one diagnostic. -/
theorem exists_filter_unresolvedReference (hcap : h.policy.cap = none) (version : Json)
    (hc : steps.tokens[i]? = some c) (hop : steps.isOperandAt i c = true)
    (hlookup : steps.labels.lookup c.text = none) :
    ∃ d, (steps.stream version).diagnostics.filter
        (fun d => d.code = .unresolvedReference ∧ d.range = c.range) = [d] ∧
      d.severity = h.policy.severity := by
  have henum : Enumerates (Label.UnresolvedAt h.grammar h.policy.caseSensitive h.policy.severity
      steps.labels none steps.tokens) (h.resolution steps.labels steps.tokens).2 :=
    Label.enumerates_unresolved none steps.tokens
  obtain ⟨d, ⟨u, _, _, _, rfl⟩, hd⟩ := henum.exists_filter_eq_singleton
    (p := fun d => d.range = c.range) ⟨c, hc, hop, hlookup, rfl⟩ fun j _ hj => by
      obtain ⟨u, hu, _, _, rfl⟩ := hj
      rw [decide_eq_true_eq]
      exact steps.range_eq_iff hc hu
  refine ⟨Label.unresolved h.policy.severity steps.labels u, ?_, rfl⟩
  rw [← hd, ← steps.filter_unresolvedReference hcap version, List.filter_filter]
  apply List.filter_congr
  intro d _
  rw [Bool.decide_and, Bool.and_comm]

/-- Every diagnostic on an unknown reference is on a reference of the stream. -/
theorem exists_reference_of_mem (hcap : h.policy.cap = none) {version : Json} {d : Diagnostic}
    (hd : d ∈ (steps.stream version).diagnostics) (hcode : d.code = .unresolvedReference) :
    ∃ t ∈ steps.checked, t.category = .labelReference ∧ t.isResolved = false ∧
      d.range = t.range := by
  have hmem : d ∈ (h.resolution steps.labels steps.tokens).2 := by
    rw [← steps.filter_unresolvedReference hcap version]
    exact List.mem_filter.mpr ⟨hd, decide_eq_true hcode⟩
  obtain ⟨i, c, hc, hop, hlookup, rfl⟩ :=
    (Label.enumerates_unresolved none steps.tokens).exists_place d hmem
  refine ⟨Label.reference steps.labels c, ?_, Label.category_reference .., ?_, ?_⟩
  · refine List.mem_iff_getElem?.mpr ⟨i, ?_⟩
    have hop : steps.isOperandAt i c = true := hop
    rw [getElem?_checked, hc, Option.map_some, if_pos hop]
  · rw [Label.isResolved_reference, hlookup]
    rfl
  · exact (Label.range_reference steps.labels c).symm

/-- What the stream tells about a reference that was made of a jump operand. -/
theorem referenceReported (hcap : h.policy.cap = none) (version : Json)
    (hc : steps.tokens[i]? = some c) (hop : steps.isOperandAt i c = true) :
    ReferenceReported h.policy.severity (steps.stream version)
      (Label.reference steps.labels c) := by
  constructor
  case resolved_iff =>
    rw [Label.isResolved_reference, Label.text_reference, steps.tokens_stream]
    exact steps.isSome_lookup_iff
  case declared =>
    intro hresolved
    rw [Label.isResolved_reference] at hresolved
    obtain ⟨label, hlookup⟩ := Option.isSome_iff_exists.mp hresolved
    obtain ⟨hname, j, hfirst⟩ := (Label.lookup_eq_some_iff steps.collect_eq).mp hlookup
    rw [Label.text_reference, Label.declaration?_reference, hlookup, steps.tokens_stream]
    exact ⟨j, label, steps.firstAt_checked.mpr hfirst, hname, rfl, hlookup⟩
  case undeclared =>
    intro hunresolved
    rw [Label.isResolved_reference, Option.isSome_eq_false_iff, Option.isNone_iff_eq_none]
      at hunresolved
    rw [Label.declaration?_reference, Label.range_reference, hunresolved]
    exact ⟨rfl, steps.exists_filter_unresolvedReference hcap version hc hop hunresolved⟩

end Steps

/-- Each reference is resolved exactly when its label is declared, before or after it, and
    its attributes, the diagnostics and the semantic tokens agree on that. -/
theorem references_reported (h : Highlighter) (hcap : h.policy.cap = none) {source : String}
    {version : Json} {s : Stream} (hok : h.highlight source version = .ok s) :
    (∀ t ∈ s.tokens, t.category = .labelReference → ReferenceReported h.policy.severity s t) ∧
    (∀ d ∈ s.diagnostics, d.code = .unresolvedReference → ∃ t ∈ s.tokens,
      t.category = .labelReference ∧ t.isResolved = false ∧ d.range = t.range) ∧
    ∀ (i : Nat) (t : Token), s.tokens[i]? = some t →
      ∃ bits, s.semanticTokens[5 * i + 4]? = some bits ∧ (bits.toNat.testBit 1 = true ↔
        t.category = .labelReference ∧ t.isResolved = false) := by
  obtain ⟨steps, rfl⟩ := highlight_eq_ok_iff.mp hok
  refine ⟨fun t ht hcat => ?_, fun d hd hcode => ?_, fun i t ht => ?_⟩
  · rw [steps.tokens_stream] at ht
    obtain ⟨i, hi⟩ := List.mem_iff_getElem?.mp ht
    obtain ⟨c, hc, hop, rfl⟩ := steps.exists_operand_of_category hi hcat
    exact steps.referenceReported hcap version hc hop
  · rw [steps.tokens_stream]
    exact steps.exists_reference_of_mem hcap hd hcode
  · refine ⟨Stream.modifiers t, ?_, Stream.testBit_modifiers t⟩
    rw [Stream.getElem?_semanticTokens, ht]
    rfl

/-- A jump forwards to a label that is declared, and one to a label that is not. -/
theorem references_reported_forwards :
    ∃ s, standard.highlight "jp a\n.a: jp b" = .ok s ∧ s.labels.names = ["a"] ∧
      s.diagnostics.map Diagnostic.code = [.unresolvedReference] ∧
      ∀ t ∈ s.tokens, t.category = .labelReference → ReferenceReported .error s t := by
  have hfound : (standard.highlight "jp a\n.a: jp b").toOption.map
      (fun s => (s.labels.names, s.diagnostics.map Diagnostic.code)) =
        some (["a"], [.unresolvedReference]) := by with_unfolding_all decide
  cases hok : standard.highlight "jp a\n.a: jp b" with
  | error fault => rw [hok] at hfound; cases hfound
  | ok s =>
    rw [hok] at hfound
    obtain ⟨hlabels, hcodes⟩ := Prod.mk.inj (Option.some.inj hfound)
    exact ⟨s, rfl, hlabels, hcodes, (references_reported standard rfl hok).1⟩

end AsmHighlight.Highlighter
