-- SUMMARY: What classification makes of each lexeme, and when it fails.
import AsmHighlight.Proofs.Except
import AsmHighlight.Proofs.Lexeme.Tiling
import AsmHighlight.Proofs.Token.Word
import AsmHighlight.Token.Classify

/-!
# The rules of classification

`Classified` lists the rules by which a lexeme becomes a token, each with the
condition under which it applies. `classify_classified` says that
classification follows them, and `classify_eq_error_iff` when it fails.
-/

namespace AsmHighlight.Token

def span (t : Token) : Span :=
  ⟨t.text, t.range⟩

/-- The tokens that the rules make of a lexeme; `previous` is the token before it on
    its line. -/
inductive Classified (g : Grammar) (caseSensitive : Bool) (previous : Option Token) (l : Lexeme) :
    Token → Prop where
  | comment (hkind : l.kind = .comment) :
      Classified g caseSensitive previous l (ofLexeme .comment l [])
  | punctuation (hkind : l.kind = .punctuation) :
      Classified g caseSensitive previous l (ofLexeme .punctuation l [])
  | string (hkind : l.kind = .string) :
      Classified g caseSensitive previous l
        (ofLexeme .stringLiteral l [.stringValue (Literal.decodeString l.text)])
  | unterminated (hkind : l.kind = .invalid) (reason : String) :
      Classified g caseSensitive previous l (invalid l reason)
  | directive (hkind : l.kind = .word) {d : Directive} (hd : d ∈ g.directives)
      (hword : l.text = "#" ++ d.name) :
      Classified g caseSensitive previous l (ofLexeme .directiveKeyword l [.directive d.name])
  | label (hkind : l.kind = .word) (hfirst : previous = none) {name : String}
      (hname : IsDeclaration l.text name) :
      Classified g caseSensitive previous l (ofLexeme .labelDeclaration l [.name name])
  | integer (hkind : l.kind = .word) {v : Int} (hv : Literal.IsInteger l.text.toList v) :
      Classified g caseSensitive previous l (ofLexeme .integerLiteral l [.integerValue v])
  /-- The operand of a jump is a label, whatever else it is the name of. -/
  | operand (hkind : l.kind = .word) (hjump : previous.any (isJump g caseSensitive) = true)
      (hname : Literal.isNameChars l.text.toList = true) :
      Classified g caseSensitive previous l (ofLexeme .identifier l [])
  | mnemonic (hkind : l.kind = .word)
      (hoperand : ¬ (previous.any (isJump g caseSensitive) = true ∧
        Literal.isNameChars l.text.toList = true))
      (hm : g.isMnemonic caseSensitive l.text = true) :
      Classified g caseSensitive previous l (ofLexeme .mnemonic l [])
  | register (hkind : l.kind = .word) (hm : g.isMnemonic caseSensitive l.text = false)
      (hr : g.isRegister caseSensitive l.text = true)
      (hoperand : ¬ (previous.any (isJump g caseSensitive) = true ∧
        Literal.isNameChars l.text.toList = true)) :
      Classified g caseSensitive previous l (ofLexeme .register l [])
  | identifier (hkind : l.kind = .word) (hjump : previous.any (isJump g caseSensitive) = false)
      (hm : g.isMnemonic caseSensitive l.text = false)
      (hr : g.isRegister caseSensitive l.text = false)
      (hname : Literal.isNameChars l.text.toList = true) :
      Classified g caseSensitive previous l (ofLexeme .identifier l [])
  | malformed (hkind : l.kind = .word) (reason : String) (hint : Option String)
      (hunknown : ¬ KnownWord g caseSensitive (previous = none) l.text) :
      Classified g caseSensitive previous l (invalid l reason hint)

/-- The lead of a word decides which rule it is tried with. -/
theorem classifyWord_eq (g : Grammar) (caseSensitive : Bool) (previous : Option Token)
    (l : Lexeme) :
    classifyWord g caseSensitive previous l =
      match leadOf l.text with
      | .numberSign => .ok (classifyDirective g l)
      | .point => .ok (classifyLabel previous.isNone l)
      | .number => classifyNumber l
      | .other =>
        .ok (classifyPlain g caseSensitive (previous.any (isJump g caseSensitive)) l) := by
  unfold classifyWord
  split
  next rest hword => rw [leadOf_numberSign hword]
  next rest hword => rw [leadOf_point hword]
  next hsign hpoint =>
    split
    next hnum => rw [leadOf_number hnum]
    next hnum =>
      have hlead : leadOf l.text = .other := by
        unfold leadOf
        split
        next rest hword => exact absurd hword (hsign rest)
        next rest hword => exact absurd hword (hpoint rest)
        next => rw [if_neg hnum]
      rw [hlead]

/-- A word after a point declares the name in it if it is the first of its line and
    that is a name, and is invalid otherwise. -/
theorem classifyLabel_cases {l : Lexeme} (hbreak : ∀ c ∈ l.text.toList, c ≠ '\n') (first : Bool) :
    (first = true ∧ Literal.isNameChars (Literal.labelName l.text).toList = true ∧
      classifyLabel first l = ofLexeme .labelDeclaration l [.name (Literal.labelName l.text)]) ∨
    (¬ (first = true ∧ Literal.isNameChars (Literal.labelName l.text).toList = true) ∧
      ∃ reason hint, classifyLabel first l = invalid l reason hint) := by
  simp only [classifyLabel, isIdentifier_labelName hbreak]
  split
  next hfirst =>
    split
    next hname => exact .inl ⟨hfirst, hname, rfl⟩
    next hname => exact .inr ⟨fun h => hname h.2, _, _, rfl⟩
  next hfirst => exact .inr ⟨fun h => hfirst h.1, _, _, rfl⟩

section Rules

variable {g : Grammar} (hg : g.Sound) {caseSensitive : Bool} {previous : Option Token} {l : Lexeme}
  {t : Token} (hkind : l.kind = .word)

include hg hkind

theorem classifyDirective_classified (hlead : leadOf l.text = .numberSign) :
    Classified g caseSensitive previous l (classifyDirective g l) := by
  obtain ⟨rest, hword⟩ := head_of_leadOf_numberSign hlead
  unfold classifyDirective
  simp only [hword, List.drop_succ_cons, List.drop_zero]
  split
  next d hd =>
    obtain ⟨hmem, hname⟩ := hg.directive?_eq_some_iff.mp hd
    rw [← hname]
    refine .directive hkind hmem ?_
    rw [hname, ← String.toList_inj, hword]
    simp
  next hnone =>
    refine .malformed hkind _ _ fun hknown => ?_
    have hform := hknown.lead hg
    rw [hlead] at hform
    obtain ⟨d, hd, hd'⟩ := hform
    have hrest : rest = d.name.toList := by
      have := congrArg String.toList hd'
      rw [hword] at this
      simpa using this
    rw [hrest, String.ofList_toList, hg.directive?_eq_some_iff.mpr ⟨hd, rfl⟩] at hnone
    cases hnone

theorem classifyLabel_classified (hbreak : ∀ c ∈ l.text.toList, c ≠ '\n')
    (hlead : leadOf l.text = .point) :
    Classified g caseSensitive previous l (classifyLabel previous.isNone l) := by
  obtain ⟨rest, hword⟩ := head_of_leadOf_point hlead
  rcases classifyLabel_cases hbreak previous.isNone with
    ⟨hfirst, hname, heq⟩ | ⟨hnot, reason, hint, heq⟩
  · rw [heq]
    exact .label hkind (Option.isNone_iff_eq_none.mp hfirst) (isDeclaration_labelName hword hname)
  · rw [heq]
    refine .malformed hkind _ _ fun hknown => ?_
    have hform := hknown.lead hg
    rw [hlead] at hform
    obtain ⟨hfirst, name, hname⟩ := hform
    exact hnot ⟨Option.isNone_iff_eq_none.mpr hfirst, hname.labelName_eq ▸ hname.1⟩

theorem classifyNumber_classified (hbreak : ∀ c ∈ l.text.toList, c ≠ '\n')
    (hlead : leadOf l.text = .number) (h : classifyNumber l = .ok t) :
    Classified g caseSensitive previous l t := by
  obtain ⟨value, hvalue, rfl⟩ := Except.map_eq_ok_iff.mp h
  have hend := Literal.getLast?_ne_newline hbreak
  cases value with
  | some v => exact .integer hkind ((Literal.parseInteger_eq_ok_some_iff hend).mp hvalue).1
  | none =>
    refine .malformed hkind _ _ fun hknown => ?_
    have hform := hknown.lead hg
    rw [hlead] at hform
    obtain ⟨v, hv⟩ := hform
    have hlen : ¬ Literal.IsOverlongDecimal l.text.toList := by
      intro hlong
      rw [Literal.parseInteger_of_isOverlongDecimal hend hlong] at hvalue
      cases hvalue
    rw [Literal.parseInteger_of_isInteger hend hv hlen] at hvalue
    cases hvalue

theorem classifyPlain_classified (hbreak : ∀ c ∈ l.text.toList, c ≠ '\n')
    (hlead : leadOf l.text = .other) :
    Classified g caseSensitive previous l
      (classifyPlain g caseSensitive (previous.any (isJump g caseSensitive)) l) := by
  unfold classifyPlain
  simp only [isIdentifier_eq_isNameChars hbreak, Bool.and_eq_true]
  split
  next h => exact .operand hkind h.1 h.2
  next hoperand =>
    split
    next hm => exact .mnemonic hkind hoperand hm
    next hm =>
      have hm' := eq_false_of_ne_true hm
      split
      next hr => exact .register hkind hm' hr hoperand
      next hr =>
        have hr' := eq_false_of_ne_true hr
        split
        next hname =>
          refine .identifier hkind ?_ hm' hr' hname
          exact eq_false_of_ne_true fun hjump => hoperand ⟨hjump, hname⟩
        next hname =>
          refine .malformed hkind _ _ fun hknown => ?_
          have hform := hknown.lead hg
          rw [hlead] at hform
          rcases hform with h | h | h
          · exact hm h
          · exact hr h
          · exact hname h

end Rules

/-- Classification follows the rules. -/
theorem classify_classified {g : Grammar} (hg : g.Sound) {caseSensitive : Bool}
    {previous : Option Token} {l : Lexeme} {t : Token} (hbreak : ∀ c ∈ l.text.toList, c ≠ '\n')
    (h : classify g caseSensitive previous l = .ok t) :
    Classified g caseSensitive previous l t := by
  unfold classify at h
  split at h
  next hkind => cases h; exact .comment hkind
  next hkind => cases h; exact .punctuation hkind
  next hkind => cases h; exact .string hkind
  next hkind => cases h; exact .unterminated hkind _
  next hkind =>
    rw [classifyWord_eq] at h
    split at h
    next hlead => cases h; exact classifyDirective_classified hg hkind hlead
    next hlead => cases h; exact classifyLabel_classified hg hkind hbreak hlead
    next hlead => exact classifyNumber_classified hg hkind hbreak hlead h
    next hlead => cases h; exact classifyPlain_classified hg hkind hbreak hlead

/-- Classification fails exactly on decimal words that are too long. -/
theorem classify_eq_error_iff {g : Grammar} {caseSensitive : Bool} {previous : Option Token}
    {l : Lexeme} {cause : Decimal.Overlong} (hbreak : ∀ c ∈ l.text.toList, c ≠ '\n') :
    classify g caseSensitive previous l = .error cause ↔
      l.kind = .word ∧ Literal.IsOverlongDecimal l.text.toList ∧
        cause = .reading (l.text.toList.countP Char.isDigit) := by
  have hnumber : classifyNumber l = .error cause ↔ Literal.IsOverlongDecimal l.text.toList ∧
      cause = .reading (l.text.toList.countP Char.isDigit) := by
    rw [classifyNumber, Except.map_eq_error_iff,
      Literal.parseInteger_eq_error_iff (Literal.getLast?_ne_newline hbreak)]
  constructor
  · intro h
    unfold classify at h
    split at h
    case h_5 hkind =>
      rw [classifyWord_eq] at h
      split at h
      case h_3 => exact ⟨hkind, hnumber.mp h⟩
      all_goals cases h
    all_goals cases h
  · rintro ⟨hkind, hlong, hcause⟩
    simp only [classify, hkind, classifyWord_eq, leadOf_number hlong.startsNumeric]
    exact hnumber.mpr ⟨hlong, hcause⟩

/-- A token has the text and place of its lexeme, whatever the grammar. -/
theorem span_of_classify {g : Grammar} {caseSensitive : Bool} {previous : Option Token}
    {l : Lexeme} {t : Token} (h : classify g caseSensitive previous l = .ok t) :
    t.span = l.span := by
  unfold classify at h
  split at h
  case h_5 =>
    rw [classifyWord_eq] at h
    split at h
    next =>
      cases h
      unfold classifyDirective
      simp only
      split <;> rfl
    next =>
      cases h
      unfold classifyLabel
      simp only
      repeat' split
      all_goals rfl
    next =>
      obtain ⟨value, _, rfl⟩ := Except.map_eq_ok_iff.mp h
      cases value with
      | none => rfl
      | some v => rfl
    next =>
      cases h
      unfold classifyPlain
      repeat' split
      all_goals rfl
  all_goals
    cases h
    rfl

/-- The token carries every attribute that a later step looks up for its category. -/
structure Equipped (g : Grammar) (t : Token) : Prop where
  name : t.category = .labelDeclaration → ∃ name, t.name? = some name
  directive : t.category = .directiveKeyword →
    ∃ name d, t.directiveName? = some name ∧ g.directive? name = some d
  reason : t.category = .invalid → ∃ reason, t.reason? = some reason
  value : t.category = .integerLiteral → ∃ v, t.integerValue? = some v

/-- Classification attaches what the later steps look up. -/
theorem Classified.equipped {g : Grammar} (hg : g.Sound) {caseSensitive : Bool}
    {previous : Option Token} {l : Lexeme} {t : Token}
    (h : Classified g caseSensitive previous l t) : t.Equipped g := by
  cases h with
  | unterminated _ reason => exact ⟨nofun, nofun, fun _ => ⟨reason, rfl⟩, nofun⟩
  | malformed _ reason hint _ => exact ⟨nofun, nofun, fun _ => ⟨reason, rfl⟩, nofun⟩
  | @directive _ d hd _ =>
    exact ⟨nofun, fun _ => ⟨d.name, d, rfl, hg.directive?_eq_some_iff.mpr ⟨hd, rfl⟩⟩, nofun, nofun⟩
  | @label _ _ name _ => exact ⟨fun _ => ⟨name, rfl⟩, nofun, nofun, nofun⟩
  | @integer _ v _ => exact ⟨nofun, nofun, nofun, fun _ => ⟨v, rfl⟩⟩
  | comment | punctuation | string | operand | mnemonic | register | identifier =>
    exact ⟨nofun, nofun, nofun, nofun⟩

-- ---------------------------------------------------------------------------
-- Forms of lexemes and categories of tokens
-- ---------------------------------------------------------------------------

namespace Classified

variable {g : Grammar} {caseSensitive : Bool} {previous : Option Token} {l : Lexeme} {t : Token}

theorem line_eq (h : Classified g caseSensitive previous l t) : t.line = l.line := by
  cases h <;> rfl

theorem text_eq (h : Classified g caseSensitive previous l t) : t.text = l.text := by
  cases h <;> rfl

/-- A word that is not invalid has the form that its lead announces. -/
theorem of_lead (hg : g.Sound) (h : Classified g caseSensitive previous l t)
    (hkind : l.kind = .word) :
    (t.category = .invalid ∧ ¬ KnownWord g caseSensitive (previous = none) l.text) ∨
    match leadOf l.text with
    | .numberSign => ∃ d ∈ g.directives, l.text = "#" ++ d.name ∧
        t = ofLexeme .directiveKeyword l [.directive d.name]
    | .point => previous = none ∧ ∃ name, IsDeclaration l.text name ∧
        t = ofLexeme .labelDeclaration l [.name name]
    | .number => ∃ v, Literal.IsInteger l.text.toList v ∧
        t = ofLexeme .integerLiteral l [.integerValue v]
    | .other => ∃ category ∈ [.mnemonic, .register, .identifier], t = ofLexeme category l [] := by
  cases h with
  | comment h | punctuation h | string h | unterminated h => rw [hkind] at h; cases h
  | malformed _ _ _ hunknown => exact .inl ⟨rfl, hunknown⟩
  | directive _ hd hword => rw [leadOf_of_isDirective hword]; exact .inr ⟨_, hd, hword, rfl⟩
  | label _ hfirst hname => rw [leadOf_of_isDeclaration hname]; exact .inr ⟨hfirst, _, hname, rfl⟩
  | integer _ hv => rw [leadOf_number hv.startsNumeric]; exact .inr ⟨_, hv, rfl⟩
  | operand _ _ hname => rw [leadOf_of_isNameChars hname]; exact .inr ⟨.identifier, by simp, rfl⟩
  | mnemonic _ _ hm => rw [leadOf_of_mem_grammar hg (.inl hm)]; exact .inr ⟨.mnemonic, by simp, rfl⟩
  | register _ _ hr => rw [leadOf_of_mem_grammar hg (.inr hr)]; exact .inr ⟨.register, by simp, rfl⟩
  | identifier _ _ _ _ hname =>
    rw [leadOf_of_isNameChars hname]
    exact .inr ⟨.identifier, by simp, rfl⟩

/-- The invalid tokens are the strings that are not closed and the words that mean
    nothing. -/
theorem category_eq_invalid_iff (h : Classified g caseSensitive previous l t) :
    t.category = .invalid ↔ l.kind = .invalid ∨
      l.kind = .word ∧ ¬ KnownWord g caseSensitive (previous = none) l.text := by
  have not_invalid (hkind : l.kind = .word)
      (hknown : KnownWord g caseSensitive (previous = none) l.text)
      (h : l.kind = .invalid ∨
        l.kind = .word ∧ ¬ KnownWord g caseSensitive (previous = none) l.text) : False := by
    rcases h with h | ⟨_, h⟩
    · rw [hkind] at h; cases h
    · exact h hknown
  cases h with
  | unterminated hkind => exact ⟨fun _ => .inl hkind, fun _ => rfl⟩
  | malformed hkind _ _ hunknown => exact ⟨fun _ => .inr ⟨hkind, hunknown⟩, fun _ => rfl⟩
  | comment hkind | punctuation hkind | string hkind =>
    refine ⟨nofun, ?_⟩
    rintro (h | ⟨h, _⟩)
    · rw [hkind] at h; cases h
    · rw [hkind] at h; cases h
  | directive hkind hd hword =>
    exact ⟨nofun, fun h => (not_invalid hkind (.directive hd hword) h).elim⟩
  | label hkind hfirst hname =>
    exact ⟨nofun, fun h => (not_invalid hkind (.label hfirst hname) h).elim⟩
  | integer hkind hv => exact ⟨nofun, fun h => (not_invalid hkind (.integer hv) h).elim⟩
  | operand hkind _ hname => exact ⟨nofun, fun h => (not_invalid hkind (.identifier hname) h).elim⟩
  | mnemonic hkind _ hm => exact ⟨nofun, fun h => (not_invalid hkind (.mnemonic hm) h).elim⟩
  | register hkind _ hr => exact ⟨nofun, fun h => (not_invalid hkind (.register hr) h).elim⟩
  | identifier hkind _ _ _ hname =>
    exact ⟨nofun, fun h => (not_invalid hkind (.identifier hname) h).elim⟩

theorem category_eq_stringLiteral_iff (h : Classified g caseSensitive previous l t) :
    t.category = .stringLiteral ↔ l.kind = .string := by
  cases h with
  | string hkind => exact ⟨fun _ => hkind, fun _ => rfl⟩
  | _ hkind =>
    refine ⟨nofun, fun h => ?_⟩
    rw [hkind] at h
    cases h

/-- A token is an integer of some value exactly when its word is. -/
theorem integer_iff (hg : g.Sound) (h : Classified g caseSensitive previous l t) {v : Int} :
    (t.category = .integerLiteral ∧ t.integerValue? = some v) ↔
      l.kind = .word ∧ Literal.IsInteger l.text.toList v := by
  constructor
  · rintro ⟨hcat, hv⟩
    cases h with
    | integer hkind hw => cases hv; exact ⟨hkind, hw⟩
    | _ => cases hcat
  · rintro ⟨hkind, hv⟩
    rcases h.of_lead hg hkind with ⟨_, hunknown⟩ | hform
    · exact absurd (.integer hv) hunknown
    · rw [leadOf_number hv.startsNumeric] at hform
      obtain ⟨w, hw, rfl⟩ := hform
      rw [hv.unique hw]
      exact ⟨rfl, rfl⟩

/-- A token is a jump exactly when its word is, unless it is the operand of a jump. -/
theorem isJump_eq (hg : g.Sound) (h : Classified g caseSensitive previous l t) :
    t.isJump g caseSensitive = (decide (l.kind = .word) && g.isJump caseSensitive l.text &&
      !(previous.any (isJump g caseSensitive) && Literal.isNameChars l.text.toList)) := by
  have hlead : leadOf l.text ≠ .other → g.isMnemonic caseSensitive l.text = false := by
    intro hlead
    exact eq_false_of_ne_true fun hm => hlead (leadOf_of_mem_grammar hg (.inl hm))
  have hjump : g.isMnemonic caseSensitive l.text = false →
      g.isJump caseSensitive l.text = false := by
    intro hm
    refine eq_false_of_ne_true fun hj => ?_
    rw [hg.isMnemonic_of_isJump hj] at hm
    cases hm
  cases h with
  | comment hkind | punctuation hkind | string hkind | unterminated hkind =>
    rw [hkind]
    rfl
  | directive _ _ hword =>
    rw [hjump (hlead (by rw [leadOf_of_isDirective hword]; exact nofun)), Bool.and_false]
    rfl
  | label _ _ hname =>
    rw [hjump (hlead (by rw [leadOf_of_isDeclaration hname]; exact nofun)), Bool.and_false]
    rfl
  | integer _ hv =>
    rw [hjump (hlead (by rw [leadOf_number hv.startsNumeric]; exact nofun)), Bool.and_false]
    rfl
  | operand _ hprev hname =>
    rw [hprev, hname, Bool.and_true, Bool.not_true, Bool.and_false]
    rfl
  | mnemonic hkind hoperand _ =>
    rw [← Bool.and_eq_true, Bool.not_eq_true] at hoperand
    rw [hkind, hoperand, Bool.not_false, Bool.and_true]
    rfl
  | register _ hm | identifier _ _ hm =>
    rw [hjump hm, Bool.and_false]
    rfl
  | malformed _ _ _ hunknown =>
    rw [hjump (eq_false_of_ne_true fun hm => hunknown (.mnemonic hm)), Bool.and_false]
    rfl

end Classified

end AsmHighlight.Token
