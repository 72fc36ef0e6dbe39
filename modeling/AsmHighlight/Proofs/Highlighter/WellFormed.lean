-- SUMMARY: The documents that there is nothing to say about.
import AsmHighlight.Proofs.Highlighter.Steps

/-!
# Well-formed documents

`WellFormed` says in terms of the lexemes alone what a document should be: its
strings are closed, its words mean something, no label is declared twice, every
jump goes to a label, and every directive has its one operand. Each step of the
highlighter answers for some of these, and a document without a diagnostic is
one that all steps are content with. The steps are not independent: checking
passes over an operand that is invalid, because classification has reported it.
-/

namespace AsmHighlight.Highlighter

/-- The document of the lexemes is well-formed. -/
structure WellFormed (g : Grammar) (caseSensitive : Bool) (lexemes : List Lexeme) : Prop where
  /-- Every string is closed on its line. -/
  closed : ∀ l ∈ lexemes, l.kind ≠ .invalid
  /-- Every word means something where it stands. -/
  known : ∀ (i : Nat) (l : Lexeme), lexemes[i]? = some l → l.kind = .word →
    KnownWord g caseSensitive (Lexeme.FirstOnLine lexemes i l.line) l.text
  declared_once : ∀ (i j : Nat) (name : String), Label.Declares lexemes i name →
    Label.Declares lexemes j name → i = j
  /-- The name after a jump is the name of a label. -/
  jumps_declared : ∀ (i : Nat) (l : Lexeme), lexemes[i]? = some l → l.kind = .word →
    Literal.isNameChars l.text.toList = true →
    Lexeme.followsJump g caseSensitive lexemes i = true → ∃ j, Label.Declares lexemes j l.text
  /-- On the line of a directive one operand follows, and the directive takes it. -/
  supplied : ∀ (i : Nat) (l : Lexeme) (d : Directive), lexemes[i]? = some l →
    Directive.Names g l d →
    ∃ o, Lexeme.operands l.line (lexemes.drop (i + 1)) = [o] ∧ Directive.Takes d o

theorem malformed?_eq_none_iff {t : Token} : t.malformed? = none ↔ t.category ≠ .invalid := by
  simp [Token.malformed?]

namespace Steps

variable {h : Highlighter} {source : String} (steps : Steps h source) (hg : h.grammar.Sound)

theorem diagnostics_stream_eq_nil_iff (hcap : h.policy.cap = none) (version : Json) :
    (steps.stream version).diagnostics = [] ↔ steps.diagnostics = [] := by
  rw [steps.diagnostics_stream hcap, Diagnostic.sort, ← List.length_eq_zero_iff, List.length_mergeSort,
    List.length_eq_zero_iff]

/-- Collecting reports nothing exactly when no label is declared twice. -/
theorem duplicates_eq_nil_iff :
    steps.duplicates = [] ↔ ∀ (i j : Nat) (name : String),
      Label.Declares (h.lexemes source) i name → Label.Declares (h.lexemes source) j name →
        i = j := by
  rw [(Label.enumerates_repeats steps.pass steps.collect_eq).eq_nil_iff]
  constructor
  · intro hnone
    have hlt (i j : Nat) (name : String) (hij : i < j)
        (hi : Label.Declares (h.lexemes source) i name)
        (hj : Label.Declares (h.lexemes source) j name) : False := by
      obtain ⟨first, d, hd⟩ := Label.exists_repeats_iff.mpr ⟨name, hj, i, hij, hi⟩
      exact hnone j d ⟨first, hd⟩
    intro i j name hi hj
    rcases Nat.lt_trichotomy i j with hij | hij | hij
    · exact (hlt i j name hij hi hj).elim
    · exact hij
    · exact (hlt j i name hij hj hi).elim
  · rintro honce i d ⟨first, hrepeats⟩
    obtain ⟨name, hi, j, hj, hearlier⟩ := Label.exists_repeats_iff.mp ⟨first, d, hrepeats⟩
    exact Nat.ne_of_lt hj (honce j i name hearlier hi)

include hg

/-- Classification reports nothing exactly when strings are closed and words are known. -/
theorem malformed_eq_nil_iff :
    steps.tokens.filterMap Token.malformed? = [] ↔
      (∀ l ∈ h.lexemes source, l.kind ≠ .invalid) ∧
      ∀ (i : Nat) (l : Lexeme), (h.lexemes source)[i]? = some l → l.kind = .word →
        KnownWord h.grammar h.policy.caseSensitive
          (Lexeme.FirstOnLine (h.lexemes source) i l.line) l.text := by
  have hrun := run_of_classified hg steps.classified_eq
  simp only [List.filterMap_eq_nil_iff, malformed?_eq_none_iff]
  constructor
  · intro hvalid
    refine ⟨fun l hl hkind => ?_, fun i l hl hkind => ?_⟩
    · obtain ⟨i, hi⟩ := List.mem_iff_getElem?.mp hl
      obtain ⟨t, ht, hclass⟩ := hrun.exists_token hi
      exact hvalid t (List.mem_of_getElem? ht) (hclass.category_eq_invalid_iff.mpr (.inl hkind))
    · obtain ⟨t, ht, hclass⟩ := hrun.exists_token hl
      rw [← hrun.contextAt_eq_none_iff hl]
      by_contra hunknown
      refine hvalid t (List.mem_of_getElem? ht) ?_
      exact hclass.category_eq_invalid_iff.mpr (.inr ⟨hkind, hunknown⟩)
  · rintro ⟨hclosed, hknown⟩ t ht hinvalid
    obtain ⟨i, hi⟩ := List.mem_iff_getElem?.mp ht
    obtain ⟨l, hl, hclass⟩ := hrun.exists_lexeme hi
    rcases hclass.category_eq_invalid_iff.mp hinvalid with hkind | ⟨hkind, hunknown⟩
    · exact hclosed l (List.mem_of_getElem? hl) hkind
    · have hword := hknown i l hl hkind
      rw [← hrun.contextAt_eq_none_iff hl] at hword
      exact hunknown hword

/-- Resolution reports nothing exactly when every jump goes to a label. -/
theorem unresolved_eq_nil_iff :
    (h.resolution steps.labels steps.tokens).2 = [] ↔
      ∀ (i : Nat) (l : Lexeme), (h.lexemes source)[i]? = some l → l.kind = .word →
        Literal.isNameChars l.text.toList = true →
        Lexeme.followsJump h.grammar h.policy.caseSensitive (h.lexemes source) i = true →
        ∃ j, Label.Declares (h.lexemes source) j l.text := by
  have hrun := run_of_classified hg steps.classified_eq
  rw [resolution, Label.resolve, Label.resolveFrom_snd_eq_nil_iff]
  constructor
  · intro hall i l hl hkind hname hfollows
    obtain ⟨t, ht, hclass⟩ := hrun.exists_token hl
    rw [← Label.isSome_lookup_iff steps.pass steps.collect_eq, ← hclass.text_eq]
    exact hall i t ht ((Label.isJumpOperand_iff_followsJump steps.pass hg hl ht).mpr ⟨hkind, hname, hfollows⟩)
  · intro hall i t ht hop
    obtain ⟨l, hl, hclass⟩ := hrun.exists_lexeme ht
    obtain ⟨hkind, hname, hfollows⟩ := (Label.isJumpOperand_iff_followsJump steps.pass hg hl ht).mp hop
    rw [Label.isSome_lookup_iff steps.pass steps.collect_eq, hclass.text_eq]
    exact hall i l hl hkind hname hfollows

/-- When nothing is invalid, checking reports nothing exactly when every directive has
    its operand. -/
theorem found_eq_nil_iff (hvalid : steps.tokens.filterMap Token.malformed? = []) :
    steps.found = [] ↔ ∀ (i : Nat) (l : Lexeme) (d : Directive), (h.lexemes source)[i]? = some l →
      Directive.Names h.grammar l d →
      ∃ o, Lexeme.operands l.line ((h.lexemes source).drop (i + 1)) = [o] ∧
        Directive.Takes d o := by
  have hseen := seen_resolution hg steps.classified_eq steps.labels
  have hsorted := (run_of_classified hg steps.classified_eq).lines_sorted
  have hresolved : ∀ u ∈ (h.resolution steps.labels steps.tokens).1, u.category ≠ .invalid := by
    simp only [List.filterMap_eq_nil_iff, malformed?_eq_none_iff] at hvalid
    intro u hu
    obtain ⟨t, ht, rfl | rfl⟩ := Label.mem_resolveFrom hu
    · exact hvalid u ht
    · rw [Label.category_reference]
      exact nofun
  rw [Directive.remarks_eq_nil_iff steps.check_eq]
  exact forall_congr' fun i => Directive.acceptedAt_iff hseen hsorted hresolved

end Steps

/-- With no cap on diagnostics, there is nothing to say about a document exactly when it
    is well-formed. -/
theorem diagnostics_eq_nil_iff (h : Highlighter) (hg : h.grammar.Extended)
    (hcap : h.policy.cap = none) {source : String} {version : Json} {s : Stream}
    (hok : h.highlight source version = .ok s) :
    s.diagnostics = [] ↔
      WellFormed h.grammar h.policy.caseSensitive (h.lexemes source) := by
  obtain ⟨steps, rfl⟩ := highlight_eq_ok_iff.mp hok
  rw [steps.diagnostics_stream_eq_nil_iff hcap, Steps.diagnostics]
  simp only [List.append_eq_nil_iff]
  constructor
  · rintro ⟨⟨⟨hvalid, hduplicates⟩, hunresolved⟩, hfound⟩
    obtain ⟨hclosed, hknown⟩ := (steps.malformed_eq_nil_iff hg.sound).mp hvalid
    exact ⟨hclosed, hknown, steps.duplicates_eq_nil_iff.mp hduplicates,
      (steps.unresolved_eq_nil_iff hg.sound).mp hunresolved,
      (steps.found_eq_nil_iff hg.sound hvalid).mp hfound⟩
  · rintro ⟨hclosed, hknown, honce, hjumps, hsupplied⟩
    have hvalid := (steps.malformed_eq_nil_iff hg.sound).mpr ⟨hclosed, hknown⟩
    exact ⟨⟨⟨hvalid, steps.duplicates_eq_nil_iff.mpr honce⟩,
      (steps.unresolved_eq_nil_iff hg.sound).mpr hjumps⟩,
      (steps.found_eq_nil_iff hg.sound hvalid).mpr hsupplied⟩

/-- A label, a jump to it and a byte make a well-formed document. -/
theorem diagnostics_eq_nil_program :
    ∃ s, standard.highlight ".a: cpy a0\njp a ;b\n#d8 255" = .ok s ∧ s.diagnostics = [] ∧
      WellFormed .builtin false (standard.lexemes ".a: cpy a0\njp a ;b\n#d8 255") := by
  have hnone : (standard.highlight ".a: cpy a0\njp a ;b\n#d8 255").toOption.map
      Stream.diagnostics = some [] := by with_unfolding_all decide
  cases hok : standard.highlight ".a: cpy a0\njp a ;b\n#d8 255" with
  | error fault => rw [hok] at hnone; cases hnone
  | ok s =>
    rw [hok] at hnone
    have hnil : s.diagnostics = [] := Option.some.inj hnone
    exact ⟨s, rfl, hnil, (diagnostics_eq_nil_iff standard .builtin rfl hok).mp hnil⟩

end AsmHighlight.Highlighter
