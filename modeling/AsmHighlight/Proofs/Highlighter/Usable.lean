-- SUMMARY: The words of a grammar stand for themselves, unless they end in a line break.
import AsmHighlight.Proofs.Grammar.Chained
import AsmHighlight.Proofs.Highlighter.Steps

/-!
# Words of a grammar that can be used

A name alone in a document is one word for the scanner, it is no directive, label
or number, and nothing stands before it that could make it an operand. So it is
one token of the category that the grammar gives it (`highlight_name`).

The words that extensions add are checked to be names, but the check lets one
line break pass at the end. A word with that line break is no name, and dead: no
token of any document has its text. All others can be used (`entry_usable_iff`).
-/

namespace AsmHighlight

-- ---------------------------------------------------------------------------
-- Names as words
-- ---------------------------------------------------------------------------

/-- The characters of names are part of words, unless comments start with one. -/
theorem Lexeme.isOrdinary_of_isNamePart {sigil c : Char} (hc : Literal.isNamePart c = true)
    (hsigil : Literal.isNamePart sigil = false) : isOrdinary (some sigil) c = true := by
  have hne : sigil ≠ c := by
    rintro rfl
    rw [hc] at hsigil
    cases hsigil
  have hplain : (Text.isBlank c || c == quote || c == separator) = false :=
    Text.forall_ascii
      (P := fun c => Literal.isNamePart c = true →
        (Text.isBlank c || c == quote || c == separator) = false)
      (by decide) (Literal.toNat_lt_of_isNamePart hc) hc
  simp only [Bool.or_eq_false_iff] at hplain
  simp [isOrdinary, isSigil, hplain, hne]

/-- A name is classified by the tables of the grammar alone, unless it follows a jump. -/
theorem Token.classify_name {g : Grammar} {caseSensitive : Bool} {l : Lexeme}
    (hkind : l.kind = .word) (hname : Literal.isNameChars l.text.toList = true) :
    classify g caseSensitive none l =
      .ok (ofLexeme
        (if g.isMnemonic caseSensitive l.text then .mnemonic
          else if g.isRegister caseSensitive l.text then .register else .identifier) l []) := by
  have hidentifier : Literal.isIdentifier l.text = true := by
    rw [isIdentifier_eq_isNameChars (Literal.ne_newline_of_isNameChars hname), hname]
  simp only [classify, hkind, classifyWord_eq, leadOf_of_isNameChars hname, classifyPlain,
    Option.any_none, Bool.false_and, Bool.false_eq_true, if_false, hidentifier, if_true]
  split
  next => rfl
  next => split <;> rfl

/-- Nothing is moved or cut off where there is one token and nothing to say. -/
theorem Stream.emit_singleton (cap : Option Nat) (version : Json) (t : Token) :
    Stream.emit (cap.map fun n => (n : Int)) version [t] [] [] = ⟨version, [t], [], [], 0⟩ := by
  have hsort : Diagnostic.sort [] = [] := by simp [Diagnostic.sort]
  cases cap with
  | none => simp [Stream.emit, Stream.sortTokens, hsort]
  | some n => simp [Stream.emit, Stream.sortTokens, Stream.beyondCap, hsort]

namespace Highlighter

variable {h : Highlighter} {word : String}

/-- The category that a name has by itself. -/
def categoryOf (h : Highlighter) (word : String) : Token.Category :=
  if h.grammar.isMnemonic h.policy.caseSensitive word then .mnemonic
  else if h.grammar.isRegister h.policy.caseSensitive word then .register
  else .identifier

/-- The steps after classification leave a single mnemonic, register or identifier as
    it is, and have nothing to say about it. -/
theorem highlight_of_classified_singleton {source : String} {t : Token}
    (hclassified : h.classified source = .ok [t])
    (hcategory : t.category ∈ [.mnemonic, .register, .identifier]) (version : Json) :
    h.highlight source version = .ok ⟨version, [t], [], [], 0⟩ := by
  obtain ⟨hlabel, hdirective, hvalid⟩ : t.category ≠ .labelDeclaration ∧
      t.category ≠ .directiveKeyword ∧ t.category ≠ .invalid := by
    revert hcategory
    generalize t.category = category
    revert category
    decide
  have hcollect : Label.collect [t] = .ok ([], []) := by
    simp [Label.collect, Label.collectFrom, hlabel]
  have hresolve : h.resolution [] [t] = ([t], []) := by
    simp [resolution, Label.resolve, Label.resolveFrom, Label.isJumpOperand]
  have hcheck : Directive.check h.grammar [t] = .ok ([t], []) := by
    simp [Directive.check, hdirective, bind, Except.bind, pure, Except.pure]
  have hmalformed : [t].filterMap Token.malformed? = [] := by simp [Token.malformed?, hvalid]
  rw [highlight_eq, hclassified]
  simp only [Except.mapError_ok, bind, Except.bind, hcollect, hresolve, hcheck, hmalformed,
    List.append_nil]
  rw [cap, Stream.emit_singleton]
  rfl

section Name

variable (hsigil : Literal.isNamePart h.policy.sigil = false)
  (hname : Literal.isNameChars word.toList = true)

include hsigil hname

theorem lexemes_name : h.lexemes word = [⟨.word, word, .ofLength .start word.length, none⟩] := by
  have hall : ∀ c ∈ word.toList, Lexeme.isOrdinary (some h.policy.sigil) c = true := fun c hc =>
    Lexeme.isOrdinary_of_isNamePart (Literal.isNamePart_of_isNameChars hname c hc) hsigil
  rw [lexemes, Lexeme.scan]
  cases hword : word.toList with
  | nil => rw [hword] at hname; cases hname
  | cons c rest =>
    rw [hword] at hall
    rw [Lexeme.scanFrom_last_word hall, ← hword, String.ofList_toList]
    have hlength : word.length = rest.length + 1 := by
      rw [← String.length_toList, hword, List.length_cons]
    rw [hlength]

/-- A name alone in a document is one token, and there is nothing to say about it. -/
theorem highlight_name (version : Json) :
    h.highlight word version =
      .ok ⟨version, [⟨h.categoryOf word, word, .ofLength .start word.length, []⟩], [], [], 0⟩ := by
  refine highlight_of_classified_singleton ?_ ?_ version
  · have hclassify := @Token.classify_name h.grammar h.policy.caseSensitive
      ⟨.word, word, .ofLength .start word.length, none⟩ rfl hname
    rw [classified, lexemes_name hsigil hname, Token.classifyAll, Token.classifyFrom,
      Option.filter_none, hclassify]
    rfl
  · simp only [categoryOf]
    repeat' split
    all_goals simp

end Name

-- ---------------------------------------------------------------------------
-- Words of the grammar
-- ---------------------------------------------------------------------------

/-- The word can be used: it has the form of a name, and alone in a document it is one
    token of the category, about which there is nothing to say. -/
structure Usable (h : Highlighter) (category : Token.Category) (word : String) : Prop where
  form : Literal.isNameChars word.toList = true
  alone : ∀ version, ∃ s t, h.highlight word version = .ok s ∧ s.tokens = [t] ∧
    t.text = word ∧ t.category = category ∧ s.diagnostics = []

/-- The word cannot be used: it is no name, and no token of any document has its text. -/
structure Dead (h : Highlighter) (word : String) : Prop where
  form : Literal.isNameChars word.toList = false
  nowhere : ∀ source version s, h.highlight source version = .ok s → ∀ t ∈ s.tokens, t.text ≠ word

theorem usable_of_isNameChars (hsigil : Literal.isNamePart h.policy.sigil = false)
    (hname : Literal.isNameChars word.toList = true) : Usable h (h.categoryOf word) word where
  form := hname
  alone version := ⟨_, _, highlight_name hsigil hname version, rfl, rfl, rfl, rfl⟩

/-- Tokens stay within their line. -/
theorem dead_of_getLast?_eq_newline (hend : word.toList.getLast? = some '\n') : Dead h word where
  form := eq_false_of_ne_true fun hname =>
    Literal.ne_newline_of_isNameChars hname '\n' (List.mem_of_getLast? hend) rfl
  nowhere source version s hok t ht := by
    rintro rfl
    have hline := ((tokens_tile h hok).one_line t.span (List.mem_map_of_mem ht)).1
    exact absurd (hline '\n' (List.mem_of_getLast? hend)) (by decide)

theorem Dead.not_usable (hdead : Dead h word) (category : Token.Category) :
    ¬ Usable h category word := by
  intro husable
  have hform := husable.form
  rw [hdead.form] at hform
  cases hform

end Highlighter

namespace Grammar

/-- The words of a grammar, with the category of each. -/
inductive Entry (g : Grammar) : Token.Category → String → Prop where
  | mnemonic {key : String} (h : key ∈ g.mnemonicKeys) : Entry g .mnemonic key
  | register {name : String} (h : name ∈ g.registers) : Entry g .register name

variable {g : Grammar} (hg : g.Extended) {category : Token.Category} {word : String}

include hg

theorem Entry.isTableName (h : g.Entry category word) : Literal.isTableName word = true := by
  cases h with
  | mnemonic h => exact hg.sound.mnemonic_names word h
  | register h => exact hg.sound.register_names word h

/-- The words of a grammar are found as what they are, whether case matters or not. -/
theorem Entry.categoryOf_eq (h : g.Entry category word) (policy : Policy) :
    Highlighter.categoryOf ⟨g, policy⟩ word = category := by
  have hlookup : lookupForm policy.caseSensitive word = word := by
    unfold lookupForm
    split
    · rfl
    · exact Literal.lowercase_eq_self_of_isTableName (h.isTableName hg)
  have hmnemonic : g.isMnemonic policy.caseSensitive word = true ↔ word ∈ g.mnemonicKeys := by
    rw [isMnemonic, hlookup]
    exact Keyed.isSome_get?_iff
  rw [Highlighter.categoryOf]
  cases h with
  | mnemonic h => rw [if_pos (hmnemonic.mpr h)]
  | register h =>
    have hapart := fun hkey => hg.coherent.apart word hkey h
    rw [if_neg (fun hm => hapart (hmnemonic.mp hm)), if_pos]
    rw [isRegister, hlookup]
    exact decide_eq_true h

end Grammar

namespace Highlighter

/-- A word of an extended grammar can be used exactly if it does not end in a line break,
    and is dead if it does. Comments must not start with a character of names. -/
theorem entry_usable_iff {base g : Grammar} {data : Json} (hbase : base.Extended)
    (hadd : base.addJson data = .ok g) (policy : Policy)
    (hsigil : Literal.isNamePart policy.sigil = false) {category : Token.Category} {word : String}
    (hentry : g.Entry category word) :
    (Usable ⟨g, policy⟩ category word ↔ word.toList.getLast? ≠ some '\n') ∧
      (word.toList.getLast? = some '\n' → Dead ⟨g, policy⟩ word) := by
  have hg := hbase.add hadd
  refine ⟨⟨fun husable hend => ?_, fun hend => ?_⟩, dead_of_getLast?_eq_newline⟩
  · exact (dead_of_getLast?_eq_newline hend).not_usable category husable
  · have hname := (Literal.isNameChars_iff_of_isTableName (hentry.isTableName hg)).mpr hend
    rw [← hentry.categoryOf_eq hg policy]
    exact usable_of_isNameChars hsigil hname

/-- One new mnemonic and one new register. -/
def twoWords : Json :=
  .object [("mnemonics", .arr [.str "NOP"]), ("registers", .arr [.str "IX"])]

/-- Both are entered in lower case, and can be used. -/
theorem entry_usable_twoWords :
    ∃ g, Grammar.builtin.addJson twoWords = .ok g ∧
      Usable ⟨g, standard.policy⟩ .mnemonic "nop" ∧ Usable ⟨g, standard.policy⟩ .register "ix" := by
  have hlists : (Grammar.builtin.addJson twoWords).toOption.map
      (fun g => decide ("nop" ∈ g.mnemonicKeys ∧ "ix" ∈ g.registers)) = some true := by
    with_unfolding_all decide
  cases hadd : Grammar.builtin.addJson twoWords with
  | error fault => rw [hadd] at hlists; cases hlists
  | ok g =>
    rw [hadd] at hlists
    obtain ⟨hnop, hix⟩ := of_decide_eq_true (Option.some.inj hlists)
    have hsigil : Literal.isNamePart standard.policy.sigil = false := by decide
    exact ⟨g, rfl,
      (entry_usable_iff .builtin hadd standard.policy hsigil (.mnemonic hnop)).1.mpr (by decide),
      (entry_usable_iff .builtin hadd standard.policy hsigil (.register hix)).1.mpr (by decide)⟩

/-- A mnemonic that ends in a line break. -/
def brokenWord : Json :=
  .object [("mnemonics", .arr [.str "nop\n"])]

/-- The mnemonic is accepted, line break and all, and its document holds an identifier. -/
theorem brokenWord_accepted :
    ∃ g s, Grammar.builtin.addJson brokenWord = .ok g ∧ "nop\n" ∈ g.mnemonicKeys ∧
      Literal.isNameChars "nop\n".toList = false ∧
      Highlighter.highlight ⟨g, standard.policy⟩ "nop\n" = .ok s ∧
      s.tokens.map (fun t => (t.category, t.text)) = [(.identifier, "nop")] := by
  have hfound : (Grammar.builtin.addJson brokenWord).toOption.map (fun g =>
      (decide ("nop\n" ∈ g.mnemonicKeys),
        (Highlighter.highlight ⟨g, standard.policy⟩ "nop\n").toOption.map fun s =>
          s.tokens.map fun t => (t.category, t.text))) =
      some (true, some [(.identifier, "nop")]) := by
    with_unfolding_all decide
  cases hadd : Grammar.builtin.addJson brokenWord with
  | error fault => rw [hadd] at hfound; cases hfound
  | ok g =>
    rw [hadd] at hfound
    obtain ⟨hkey, htokens⟩ := Prod.mk.inj (Option.some.inj hfound)
    cases hok : Highlighter.highlight ⟨g, standard.policy⟩ "nop\n" with
    | error fault => rw [hok] at htokens; cases htokens
    | ok s =>
      rw [hok] at htokens
      exact ⟨g, s, rfl, of_decide_eq_true hkey, by decide, hok, Option.some.inj htokens⟩

end Highlighter

end AsmHighlight
