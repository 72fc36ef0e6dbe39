-- SUMMARY: Classification in any ASCII case of the mnemonics and registers.
import AsmHighlight.Proofs.Lexeme.Recased
import AsmHighlight.Proofs.Token.Pass

/-!
# Classifying recased lexemes

If case does not matter, mnemonics and registers are looked up in lower case, and
their case is forgotten after that: a token is seen by the rest of the analysis as
if its text were small (`folded`). A recased mnemonic or register is classified
alike (`classify_recased`); so is a word behind a recased jump, because the jump is
still one. All other lexemes must keep their case, since directives, labels and
strings do not forget it.
-/

namespace AsmHighlight

namespace Grammar

variable {g : Grammar} {word word' : String} (h : word'.toLower = word.toLower)

include h

theorem lookupForm_recased : lookupForm false word' = lookupForm false word := by
  simp only [lookupForm, Bool.false_eq_true, if_false]
  rw [← Text.lowercase_toLower, h, Text.lowercase_toLower]

theorem isMnemonic_recased : g.isMnemonic false word' = g.isMnemonic false word := by
  rw [isMnemonic, isMnemonic, lookupForm_recased h]

theorem isRegister_recased : g.isRegister false word' = g.isRegister false word := by
  rw [isRegister, isRegister, lookupForm_recased h]

theorem isJump_recased : g.isJump false word' = g.isJump false word := by
  rw [isJump, isJump, lookupForm_recased h]

end Grammar

namespace Token

-- ---------------------------------------------------------------------------
-- Folded tokens
-- ---------------------------------------------------------------------------

/-- Words of the category are looked up in any case. -/
def Category.anyCase (category : Category) : Bool :=
  category ∈ [.mnemonic, .register]

/-- The token with its text in small, if it was looked up in any case. -/
def folded (t : Token) : Token :=
  if t.category.anyCase then { t with text := t.text.toLower } else t

theorem folded_of_anyCase {t : Token} (h : t.category.anyCase = true) :
    t.folded = { t with text := t.text.toLower } := if_pos h

theorem folded_of_not_anyCase {t : Token} (h : t.category.anyCase = false) : t.folded = t := by
  rw [folded, h]
  rfl

@[simp] theorem category_folded (t : Token) : t.folded.category = t.category := by
  unfold folded
  split <;> rfl

@[simp] theorem range_folded (t : Token) : t.folded.range = t.range := by
  unfold folded
  split <;> rfl

@[simp] theorem attributes_folded (t : Token) : t.folded.attributes = t.attributes := by
  unfold folded
  split <;> rfl

theorem toLower_text_folded (t : Token) : t.folded.text.toLower = t.text.toLower := by
  unfold folded
  split
  next =>
    rw [← String.toList_inj, Text.toList_toLower, Text.toList_toLower, List.map_map]
    exact List.map_congr_left fun c _ => Text.toLower_toLower c
  next => rfl

theorem isJump_folded (g : Grammar) (t : Token) : t.folded.isJump g false = t.isJump g false := by
  rw [isJump, isJump, category_folded, Grammar.isJump_recased t.toLower_text_folded]

theorem malformed?_folded (t : Token) : t.folded.malformed? = t.malformed? := by
  simp only [malformed?, reason?, hint?, category_folded, range_folded, attributes_folded]

theorem filterMap_malformed?_of_folded_eq {tokens tokens' : List Token}
    (h : tokens'.map folded = tokens.map folded) :
    tokens'.filterMap malformed? = tokens.filterMap malformed? := by
  have hmap (tokens : List Token) :
      (tokens.map folded).filterMap malformed? = tokens.filterMap malformed? := by
    rw [List.filterMap_map]
    exact List.filterMap_congr fun t _ => malformed?_folded t
  rw [← hmap, h, hmap]

-- ---------------------------------------------------------------------------
-- Classification
-- ---------------------------------------------------------------------------

variable {g : Grammar} {previous previous' : Option Token}

theorem filter_line_folded (previous : Option Token) (line : Int) :
    (previous.filter fun t => t.line = line).map folded =
      (previous.map folded).filter fun t => t.line = line := by
  cases previous with
  | none => rfl
  | some t =>
    have hline : t.folded.line = t.line := congrArg Range.line t.range_folded
    simp only [Option.filter, Option.map_some, hline]
    split <;> rfl

/-- Classification looks at the token before only for being there and for being a jump. -/
theorem classify_of_folded_eq (h : previous'.map folded = previous.map folded) (l : Lexeme) :
    classify g false previous' l = classify g false previous l := by
  have hnone : previous'.isNone = previous.isNone := by
    rw [← Option.isNone_map (f := folded), h, Option.isNone_map]
  have hjump : previous'.any (isJump g false) = previous.any (isJump g false) := by
    have hfolded (o : Option Token) : (o.map folded).any (isJump g false) = o.any (isJump g false) := by
      rw [Option.any_map]
      exact congrArg (fun p => o.any p) (funext (isJump_folded g))
    rw [← hfolded previous', h, hfolded]
  simp only [classify, classifyWord, hnone, hjump]

/-- A recased mnemonic or register is one, or both words are none. -/
theorem classifyPlain_recased {l l' : Lexeme} (h : l.Recased l') {afterJump : Bool}
    (hcat : (classifyPlain g false afterJump l).category.anyCase = true) :
    (classifyPlain g false afterJump l').folded = (classifyPlain g false afterJump l).folded := by
  have htext := h.toLower_text
  have hname : Literal.isIdentifier l'.text = Literal.isIdentifier l.text := by
    rw [← Literal.isIdentifier_toLower, htext, Literal.isIdentifier_toLower]
  have hofLexeme (category : Category) (hcategory : category.anyCase = true) :
      (ofLexeme category l' []).folded = (ofLexeme category l []).folded := by
    rw [folded_of_anyCase hcategory, folded_of_anyCase hcategory]
    simp only [ofLexeme, h.range, htext]
  unfold classifyPlain at hcat ⊢
  rw [hname, Grammar.isMnemonic_recased htext, Grammar.isRegister_recased htext]
  by_cases hoperand : (afterJump && Literal.isIdentifier l.text) = true
  · rw [if_pos hoperand] at hcat
    cases hcat
  simp only [if_neg hoperand] at hcat ⊢
  by_cases hmnemonic : g.isMnemonic false l.text = true
  · simp only [if_pos hmnemonic]
    exact hofLexeme .mnemonic rfl
  simp only [if_neg hmnemonic] at hcat ⊢
  by_cases hregister : g.isRegister false l.text = true
  · simp only [if_pos hregister]
    exact hofLexeme .register rfl
  · rw [if_neg hregister] at hcat
    split at hcat <;> cases hcat

/-- A lexeme is classified alike if only mnemonics and registers are recased. -/
theorem classify_recased {l l' : Lexeme} {t : Token}
    (hprevious : previous'.map folded = previous.map folded) (hl : l.Recased l')
    (hother : t.category.anyCase = false → l'.text = l.text)
    (h : classify g false previous l = .ok t) :
    ∃ t', classify g false previous' l' = .ok t' ∧ t'.folded = t.folded := by
  cases hcat : t.category.anyCase with
  | false =>
    have hsame : l' = l := by
      rw [Lexeme.mk.injEq]
      exact ⟨hl.kind, hother hcat, hl.range, hl.error⟩
    exact ⟨t, by rw [hsame, classify_of_folded_eq hprevious, h], rfl⟩
  | true =>
    obtain ⟨hkind, hword⟩ := mem_categories_of_classify h (by
      intro hmem
      revert hcat
      generalize t.category = category at hmem
      revert category
      decide)
    have hlead : leadOf l.text = .other := by
      revert hword hcat
      generalize t.category = category
      cases leadOf l.text <;> cases category <;> decide
    have hlead' : leadOf l'.text = .other := by
      rw [← leadOf_toLower, hl.toLower_text, leadOf_toLower, hlead]
    rw [← classify_of_folded_eq hprevious, classify_word hkind, classifyWord_eq, hlead] at h
    cases h
    refine ⟨_, ?_, classifyPlain_recased hl hcat⟩
    rw [classify_word (hl.kind.trans hkind), classifyWord_eq, hlead']

/-- A document is classified alike if only mnemonics and registers are recased. -/
theorem classifyFrom_recased {lexemes lexemes' : List Lexeme} {tokens : List Token}
    (hprevious : previous'.map folded = previous.map folded)
    (hlexemes : List.Forall₂ Lexeme.Recased lexemes lexemes')
    (h : classifyFrom g false previous lexemes = .ok tokens)
    (hother : ∀ (i : Nat) (l l' : Lexeme) (t : Token), lexemes[i]? = some l → l' ∈ lexemes' →
      l.Recased l' → tokens[i]? = some t → t.category.anyCase = false → l'.text = l.text) :
    ∃ tokens', classifyFrom g false previous' lexemes' = .ok tokens' ∧
      tokens'.map folded = tokens.map folded := by
  induction hlexemes generalizing previous previous' tokens with
  | nil =>
    cases h
    exact ⟨[], rfl, rfl⟩
  | @cons l l' rest rest' hl _ ih =>
    obtain ⟨t, ht, h⟩ := Except.bind_eq_ok_iff.mp h
    obtain ⟨more, hmore, h⟩ := Except.bind_eq_ok_iff.mp h
    cases h
    have honLine : (previous'.filter fun p => p.line = l'.line).map folded =
        (previous.filter fun p => p.line = l.line).map folded := by
      have hline : l'.line = l.line := congrArg Range.line hl.range
      rw [filter_line_folded, filter_line_folded, hprevious, hline]
    obtain ⟨t', ht', hfolded⟩ :=
      classify_recased honLine hl (hother 0 l l' t rfl (List.mem_cons_self ..) hl rfl) ht
    have hprevious' : (some t').map folded = (some t).map folded := congrArg some hfolded
    obtain ⟨more', hmore', hrest⟩ := ih hprevious' hmore fun i m m' u hm hm' =>
      hother (i + 1) m m' u hm (List.mem_cons_of_mem l' hm')
    refine ⟨t' :: more', ?_, congrArg₂ List.cons hfolded hrest⟩
    exact Except.bind_eq_ok_iff.mpr ⟨t', ht', Except.bind_eq_ok_iff.mpr ⟨more', hmore', rfl⟩⟩

end Token

end AsmHighlight
