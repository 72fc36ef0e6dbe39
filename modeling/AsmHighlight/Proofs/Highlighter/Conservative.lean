-- SUMMARY: An extension of the grammar changes nothing for documents without the names it lists.
import AsmHighlight.Proofs.Grammar.Listed
import AsmHighlight.Proofs.Highlighter.Steps

/-!
# Extensions are conservative

The grammar is asked three things of a word: whether it is a mnemonic, a register
or a jump. Two grammars with the same directives that give the same answers for
the words of a document therefore classify it alike (`Token.classifyFrom_congr`),
resolve its references alike (`Label.resolveFrom_congr`) and check its directives
alike. A grammar and its extension are such grammars for every document that has
none of the names that the extension lists (`highlight_extended`).
-/

namespace AsmHighlight

variable {g g' : Grammar} {caseSensitive : Bool}

-- ---------------------------------------------------------------------------
-- Tokens
-- ---------------------------------------------------------------------------

namespace Token

/-- The grammars tell the same of the token's text, if the token is a mnemonic. -/
def AgreedOn (g g' : Grammar) (caseSensitive : Bool) (t : Token) : Prop :=
  t.category = .mnemonic → Grammar.AgreeOn g g' caseSensitive t.text

theorem AgreedOn.isJump_eq {t : Token} (h : t.AgreedOn g g' caseSensitive) :
    t.isJump g' caseSensitive = t.isJump g caseSensitive := by
  unfold isJump
  by_cases hcat : t.category = .mnemonic
  · rw [(h hcat).jump]
  · rw [beq_eq_false_iff_ne.mpr hcat, Bool.false_and, Bool.false_and]

theorem any_isJump_congr {previous : Option Token}
    (h : ∀ p ∈ previous, p.AgreedOn g g' caseSensitive) :
    previous.any (isJump g' caseSensitive) = previous.any (isJump g caseSensitive) := by
  cases previous with
  | none => rfl
  | some p => exact (h p rfl).isJump_eq

/-- Only words become mnemonics, and they keep their text. -/
theorem agreedOn_of_classify {previous : Option Token} {l : Lexeme} {t : Token}
    (hword : l.kind = .word → Grammar.AgreeOn g g' caseSensitive l.text)
    (h : classify g caseSensitive previous l = .ok t) : t.AgreedOn g g' caseSensitive := by
  intro hcat
  have htext : t.text = l.text := congrArg Span.text (span_of_classify h)
  rw [htext]
  exact hword (mem_categories_of_classify h (by rw [hcat]; decide)).1

variable (hdirectives : g'.directives = g.directives) {previous : Option Token}
  (hprevious : ∀ p ∈ previous, p.AgreedOn g g' caseSensitive)

include hdirectives hprevious

/-- A lexeme is classified alike if the grammars agree on it and on the token before. -/
theorem classify_congr {l : Lexeme}
    (hword : l.kind = .word → Grammar.AgreeOn g g' caseSensitive l.text) :
    classify g' caseSensitive previous l = classify g caseSensitive previous l := by
  cases hkind : l.kind with
  | word =>
    have hagree := hword hkind
    rw [classify_word hkind, classify_word hkind, classifyWord_eq, classifyWord_eq,
      any_isJump_congr hprevious]
    simp only [classifyDirective, Grammar.directive?, hdirectives, classifyPlain,
      hagree.mnemonic, hagree.register]
  | _ => simp only [classify, hkind]

/-- A document is classified alike if the grammars agree on its words. -/
theorem classifyFrom_congr {lexemes : List Lexeme}
    (hwords : ∀ l ∈ lexemes, l.kind = .word → Grammar.AgreeOn g g' caseSensitive l.text) :
    classifyFrom g' caseSensitive previous lexemes =
      classifyFrom g caseSensitive previous lexemes := by
  induction lexemes generalizing previous with
  | nil => rfl
  | cons l rest ih =>
    have honLine : ∀ p ∈ previous.filter (fun t => t.line = l.line),
        p.AgreedOn g g' caseSensitive := fun p hp =>
      hprevious p (Option.mem_filter_iff.mp hp).1
    have hl := hwords l (List.mem_cons_self ..)
    simp only [classifyFrom, classify_congr hdirectives honLine hl]
    cases hclass : classify g caseSensitive (previous.filter fun t => t.line = l.line) l with
    | error cause => rfl
    | ok t =>
      have ht := agreedOn_of_classify hl hclass
      simp only [bind, Except.bind]
      rw [ih (fun p hp => Option.some.inj hp ▸ ht) fun m hm => hwords m (List.mem_cons_of_mem l hm)]

end Token

-- ---------------------------------------------------------------------------
-- Labels and directives
-- ---------------------------------------------------------------------------

/-- References are resolved alike if the grammars agree on the mnemonics. -/
theorem Label.resolveFrom_congr (severity : Severity) (table : Table) {previous : Option Token}
    {tokens : List Token} (hprevious : ∀ p ∈ previous, p.AgreedOn g g' caseSensitive)
    (htokens : ∀ t ∈ tokens, t.AgreedOn g g' caseSensitive) :
    resolveFrom g' caseSensitive severity table previous tokens =
      resolveFrom g caseSensitive severity table previous tokens := by
  induction tokens generalizing previous with
  | nil => rfl
  | cons t rest ih =>
    have ht := htokens t (List.mem_cons_self ..)
    have hoperand : isJumpOperand g' caseSensitive previous t =
        isJumpOperand g caseSensitive previous t := by
      cases previous with
      | none => rfl
      | some p => simp only [isJumpOperand, Option.any_some, (hprevious p rfl).isJump_eq]
    rw [resolveFrom, resolveFrom, hoperand, ih (fun p hp => Option.some.inj hp ▸ ht) fun u hu =>
      htokens u (List.mem_cons_of_mem t hu)]

/-- Checking looks up directives only. -/
theorem Directive.check_congr (hdirectives : g'.directives = g.directives) (tokens : List Token) :
    check g' tokens = check g tokens := by
  induction tokens with
  | nil => rfl
  | cons t rest ih => simp only [check, Grammar.directive?, hdirectives, ih]

-- ---------------------------------------------------------------------------
-- Documents
-- ---------------------------------------------------------------------------

namespace Highlighter

def withGrammar (h : Highlighter) (g : Grammar) : Highlighter :=
  { h with grammar := g }

/-- Grammars that agree on the words of a document highlight it alike. -/
theorem highlight_withGrammar {h : Highlighter} {g' : Grammar} {source : String}
    (hdirectives : g'.directives = h.grammar.directives)
    (hwords : ∀ l ∈ h.lexemes source, l.kind = .word →
      Grammar.AgreeOn h.grammar g' h.policy.caseSensitive l.text) (version : Json) :
    (h.withGrammar g').highlight source version = h.highlight source version := by
  have hnone : ∀ p ∈ (none : Option Token), p.AgreedOn h.grammar g' h.policy.caseSensitive :=
    fun p hp => absurd hp (Option.not_mem_none p)
  have hclassified : (h.withGrammar g').classified source = h.classified source :=
    Token.classifyFrom_congr hdirectives hnone hwords
  rw [highlight_eq, highlight_eq, hclassified]
  cases htokens : h.classified source with
  | error cause => simp only [Except.mapError_error, bind, Except.bind]
  | ok tokens =>
    have hagreed : ∀ t ∈ tokens, t.AgreedOn h.grammar g' h.policy.caseSensitive := by
      intro t ht
      obtain ⟨i, hi⟩ := List.mem_iff_getElem?.mp ht
      obtain ⟨l, hl, hclass⟩ := (Token.pass_of_classifyAll htokens).exists_lexeme hi
      exact Token.agreedOn_of_classify (hwords l (List.mem_of_getElem? hl)) hclass
    have hresolution (labels : Label.Table) :
        (h.withGrammar g').resolution labels tokens = h.resolution labels tokens :=
      Label.resolveFrom_congr h.policy.severity labels hnone hagreed
    have hcheck (tokens : List Token) :
        Directive.check (h.withGrammar g').grammar tokens = Directive.check h.grammar tokens :=
      Directive.check_congr hdirectives tokens
    simp only [Except.mapError_ok, bind, Except.bind, hresolution, hcheck]
    rfl

/-- A document that has none of the names that an extension lists is highlighted with the
    extended grammar as it is without. -/
theorem highlight_extended (h : Highlighter) {data : Json} {extended : Grammar}
    (hadd : h.grammar.addJson data = .ok extended) (source : String) (version : Json)
    (hfree : ∀ l ∈ h.lexemes source, l.kind = .word →
      Grammar.lookupForm h.policy.caseSensitive l.text ∉ Grammar.listedNames data) :
    (h.withGrammar extended).highlight source version = h.highlight source version :=
  highlight_withGrammar (Grammar.directives_of_addJson hadd)
    (fun l hl hkind => Grammar.agreeOn_of_addJson hadd (hfree l hl hkind)) version

/-- An extension with words of each part. -/
def helperWords : Json :=
  .object [("mnemonics", .object [("Swap", .null)]), ("registers", .arr [.str "TMP0"]),
    ("jump_mnemonics", .arr [.str "jz"])]

/-- The listed names may stand in a declaration, a comment or a string. -/
theorem highlight_extended_elsewhere :
    ∃ extended, standard.grammar.addJson helperWords = .ok extended ∧
      extended.jumps = ["jp", "jz"] ∧
      (standard.withGrammar extended).highlight ".jz: JP tmp1 ;swap\r\n#str \"tmp0\"" =
        standard.highlight ".jz: JP tmp1 ;swap\r\n#str \"tmp0\"" := by
  have hfree : ∀ l ∈ standard.lexemes ".jz: JP tmp1 ;swap\r\n#str \"tmp0\"", l.kind = .word →
      Grammar.lookupForm standard.policy.caseSensitive l.text ∉
        Grammar.listedNames helperWords := by
    with_unfolding_all decide
  have hjumps : (standard.grammar.addJson helperWords).toOption.map Grammar.jumps =
      some ["jp", "jz"] := by with_unfolding_all decide
  cases hadd : standard.grammar.addJson helperWords with
  | error fault => rw [hadd] at hjumps; cases hjumps
  | ok extended =>
    rw [hadd] at hjumps
    have halike := highlight_extended standard hadd _ .null hfree
    exact ⟨extended, rfl, Option.some.inj hjumps, halike⟩

end Highlighter

end AsmHighlight
