-- SUMMARY: Which operands a directive takes without a remark, and when checking them fails.
import AsmHighlight.Directive.Check
import AsmHighlight.Proofs.Token.Run

/-!
# Checked directives

Checking marks the directives of a document (`mark`) and looks at the operands
of each. It has nothing to say exactly when every directive has one operand
that it accepts (`remarks_eq_nil_iff`). On tokens that carry what checking looks
up, it fails exactly when the first operand of some directive is an integer too
long to be shown (`check_eq_error_iff`).
-/

namespace AsmHighlight.Directive

-- ---------------------------------------------------------------------------
-- Operands
-- ---------------------------------------------------------------------------

/-- Where lines never go back, the operands of a directive are the operands on its line. -/
theorem operands_eq_filter {line : Int} {after : List Token}
    (hsorted : (line :: after.map Token.line).Pairwise (· ≤ ·)) :
    operands line after = after.filter fun t => isOperand t && t.line == line := by
  suffices hfront : after.takeWhile (fun t => t.line == line) =
      after.filter fun t => t.line == line by
    rw [operands, hfront, List.filter_filter]
  induction after with
  | nil => rfl
  | cons t rest ih =>
    rw [List.map_cons, List.pairwise_cons, List.pairwise_cons] at hsorted
    obtain ⟨hge, hlater, hrest⟩ := hsorted
    by_cases ht : t.line = line
    · rw [List.takeWhile_cons_of_pos (by simpa using ht),
        List.filter_cons_of_pos (by simpa using ht),
        ih (List.pairwise_cons.mpr ⟨fun n hn => hge n (List.mem_cons_of_mem _ hn), hrest⟩)]
    · rw [List.takeWhile_cons_of_neg (by simpa using ht),
        List.filter_cons_of_neg (by simpa using ht)]
      symm
      rw [List.filter_eq_nil_iff]
      intro u hu
      have hfirst := hge t.line (List.mem_cons_self ..)
      have hlast := hlater u.line (List.mem_map_of_mem hu)
      simp only [beq_iff_eq]
      omega

theorem mem_of_mem_operands {line : Int} {after : List Token} {o : Token}
    (ho : o ∈ operands line after) : o ∈ after :=
  List.takeWhile_subset _ (List.mem_of_mem_filter ho)

/-- The operand is one that the directive takes without a remark. What is invalid has
    its remark already. -/
inductive Accepts (d : Directive) (o : Token) : Prop where
  | invalid (ho : o.category = .invalid)
  | text (hd : d.operand = .text) (ho : o.category = .stringLiteral)
  | unsigned {bits : Nat} {v : Int} (hd : d.operand = .unsigned bits)
      (ho : o.category = .integerLiteral) (hv : o.integerValue? = some v)
      (hfits : d.fits v = true)

/-- The operand is an integer that the directive refuses and that has no decimal text. -/
structure Overlong (d : Directive) (o : Token) (bits : Nat) (v : Int) : Prop where
  operand : d.operand = .unsigned bits
  category : o.category = .integerLiteral
  value : o.integerValue? = some v
  not_fits : d.fits v = false
  isOverlong : Decimal.isOverlong v = true

theorem fits_iff {d : Directive} {bits : Nat} (hd : d.operand = .unsigned bits) {v : Int} :
    d.fits v = true ↔ 0 ≤ v ∧ v < 2 ^ bits := by
  simp [fits, hd]

/-- What fits a small number of bits has decimal text. -/
theorem not_fits_of_isOverlong {d : Directive} {bits : Nat} (hd : d.operand = .unsigned bits)
    (hbits : bits ≤ Decimal.maxDigits) {v : Int} (hv : Decimal.isOverlong v = true) :
    d.fits v = false := by
  have hlong := Decimal.isOverlong_iff.mp hv
  have hpow : 2 ^ bits ≤ 10 ^ Decimal.maxDigits :=
    calc 2 ^ bits
        ≤ 10 ^ bits := Nat.pow_le_pow_left (by decide) bits
      _ ≤ 10 ^ Decimal.maxDigits := Nat.pow_le_pow_right (by decide) hbits
  refine eq_false_of_ne_true fun hfits => ?_
  obtain ⟨hpos, hlt⟩ := (fits_iff hd).mp hfits
  have hlt' : v.natAbs < 2 ^ bits := by
    zify
    rwa [abs_of_nonneg hpos]
  omega

section One

variable {g : Grammar} {d : Directive} {keyword o : Token}

theorem checkFirst_eq_ok_nil_iff : checkFirst d keyword o = .ok [] ↔ Accepts d o := by
  constructor
  · intro h
    unfold checkFirst at h
    split at h
    next ho => exact .invalid ho
    next =>
      split at h
      next => cases h
      next hcat =>
        have hcat := Decidable.not_not.mp hcat
        split at h
        next hd => exact .text hd (by rw [hcat, expectedCategory, hd])
        next bits hd =>
          obtain ⟨v, hv, h⟩ := Except.bind_eq_ok_iff.mp h
          have hvalue : o.integerValue? = some v := by
            cases hval : o.integerValue? with
            | none => rw [hval] at hv; cases hv
            | some w => rw [hval] at hv; cases hv; rfl
          split at h
          next hfits => exact .unsigned hd (by rw [hcat, expectedCategory, hd]) hvalue hfits
          next => split at h <;> cases h
  · intro h
    cases h with
    | invalid ho => rw [checkFirst, if_pos ho]
    | text hd ho => simp [checkFirst, expectedCategory, hd, ho]
    | unsigned hd ho hv hfits =>
      simp [checkFirst, expectedCategory, hd, ho, hv, hfits, Token.require, bind, Except.bind, pure,
        Except.pure]

theorem checkFirst_eq_error_iff (ho : o.Equipped g) {fault : Token.Fault} :
    checkFirst d keyword o = .error fault ↔
      fault = .overlong .writing ∧ ∃ bits v, Overlong d o bits v := by
  constructor
  · intro h
    unfold checkFirst at h
    split at h
    next => cases h
    next =>
      split at h
      next => cases h
      next hcat =>
        have hcat := Decidable.not_not.mp hcat
        split at h
        next => cases h
        next bits hd =>
          have hint : o.category = .integerLiteral := by rw [hcat, expectedCategory, hd]
          obtain ⟨v, hv⟩ := ho.value hint
          simp only [hv, Token.require, bind, Except.bind, Decimal.write] at h
          split at h
          next => cases h
          next hfits =>
            cases hlong : Decimal.isOverlong v with
            | false => simp [hlong, pure, Except.pure] at h
            | true =>
              simp only [hlong, if_true] at h
              cases h
              exact ⟨rfl, bits, v, hd, hint, hv, eq_false_of_ne_true hfits, hlong⟩
  · rintro ⟨rfl, bits, v, hlong⟩
    simp [checkFirst, expectedCategory, hlong.operand, hlong.category, hlong.value, hlong.not_fits,
      hlong.isOverlong, Token.require, Decimal.write, bind, Except.bind]

theorem checkSurplus_eq_nil_iff {surplus : List Token} :
    checkSurplus keyword surplus = [] ↔ surplus = [] := by
  cases surplus with
  | nil => simp [checkSurplus]
  | cons first more => simp [checkSurplus]

/-- There is nothing to say on a directive with one operand that it accepts. -/
theorem checkOperands_eq_ok_nil_iff {ops : List Token} :
    checkOperands d keyword ops = .ok [] ↔ ∃ o, ops = [o] ∧ Accepts d o := by
  cases ops with
  | nil => simp [checkOperands]
  | cons first more =>
    rw [checkOperands, Except.map_eq_ok_iff]
    simp only [List.append_eq_nil_iff, checkSurplus_eq_nil_iff]
    constructor
    · rintro ⟨_, h, rfl, rfl⟩
      exact ⟨first, rfl, checkFirst_eq_ok_nil_iff.mp h⟩
    · rintro ⟨o, ho, hacc⟩
      cases ho
      exact ⟨[], checkFirst_eq_ok_nil_iff.mpr hacc, rfl, rfl⟩

/-- Only the first operand can be too long to be shown. -/
theorem checkOperands_eq_error_iff {ops : List Token} (hops : ∀ o ∈ ops, o.Equipped g)
    {fault : Token.Fault} :
    checkOperands d keyword ops = .error fault ↔
      fault = .overlong .writing ∧ ∃ o rest bits v, ops = o :: rest ∧ Overlong d o bits v := by
  cases ops with
  | nil => simp [checkOperands]
  | cons first more =>
    rw [checkOperands, Except.map_eq_error_iff,
      checkFirst_eq_error_iff (hops first (List.mem_cons_self ..))]
    refine and_congr Iff.rfl ⟨?_, ?_⟩
    · rintro ⟨bits, v, h⟩
      exact ⟨first, more, bits, v, rfl, h⟩
    · rintro ⟨o, rest, bits, v, heq, h⟩
      cases heq
      exact ⟨bits, v, h⟩

end One

-- ---------------------------------------------------------------------------
-- Documents
-- ---------------------------------------------------------------------------

/-- The directive that a token names. -/
def ofToken? (g : Grammar) (t : Token) : Option Directive :=
  if t.category = .directiveKeyword then t.directiveName?.bind g.directive? else none

/-- The token, annotated if it is a directive. -/
def mark (g : Grammar) (t : Token) : Token :=
  (ofToken? g t).elim t fun d => annotate d t

section Run

variable {g : Grammar} {t : Token} {rest : List Token}

theorem category_of_ofToken? {d : Directive} (h : ofToken? g t = some d) :
    t.category = .directiveKeyword ∧ ∃ name, t.directiveName? = some name ∧
      g.directive? name = some d := by
  unfold ofToken? at h
  split at h
  next hcat => exact ⟨hcat, Option.bind_eq_some_iff.mp h⟩
  next => cases h

/-- Checking passes over a token that is no directive. -/
theorem check_cons_of_none (ht : t.Equipped g) (h : ofToken? g t = none) :
    check g (t :: rest) = do
      let checked ← check g rest
      return (mark g t :: checked.1, checked.2) := by
  have hcat : t.category ≠ .directiveKeyword := by
    intro hcat
    obtain ⟨name, d, hname, hd⟩ := ht.directive hcat
    simp [ofToken?, hcat, hname, hd] at h
  rw [check, if_neg hcat, mark, h]
  rfl

/-- Checking looks at the operands of a directive and goes on. -/
theorem check_cons_of_some {d : Directive} (h : ofToken? g t = some d) :
    check g (t :: rest) = do
      let found ← checkOperands d t (operands t.line rest)
      let checked ← check g rest
      return (mark g t :: checked.1, found ++ checked.2) := by
  obtain ⟨hcat, name, hname, hd⟩ := category_of_ofToken? h
  rw [check, if_pos hcat, mark, h, hname]
  simp only [Token.require, bind, Except.bind, hd]
  rfl

/-- The directive at place `i`, if there is one, has one operand that it accepts. -/
def AcceptedAt (g : Grammar) (tokens : List Token) (i : Nat) : Prop :=
  ∀ (t : Token) (d : Directive), tokens[i]? = some t → ofToken? g t = some d →
    ∃ o, operands t.line (tokens.drop (i + 1)) = [o] ∧ Accepts d o

/-- At place `i` there is a directive whose first operand is too long to be shown. -/
def FailsAt (g : Grammar) (tokens : List Token) (i : Nat) : Prop :=
  ∃ (t : Token) (d : Directive) (o : Token) (more : List Token) (bits : Nat) (v : Int),
    tokens[i]? = some t ∧ ofToken? g t = some d ∧
      operands t.line (tokens.drop (i + 1)) = o :: more ∧ Overlong d o bits v

theorem acceptedAt_zero_iff : AcceptedAt g (t :: rest) 0 ↔ ∀ d, ofToken? g t = some d →
    ∃ o, operands t.line rest = [o] ∧ Accepts d o := by
  constructor
  · intro h d hd
    exact h t d rfl hd
  · intro h u d hu hd
    cases hu
    exact h d hd

theorem failsAt_zero_iff : FailsAt g (t :: rest) 0 ↔ ∃ d o more bits v, ofToken? g t = some d ∧
    operands t.line rest = o :: more ∧ Overlong d o bits v := by
  constructor
  · rintro ⟨u, d, o, more, bits, v, hu, hd, ho, hlong⟩
    cases hu
    exact ⟨d, o, more, bits, v, hd, ho, hlong⟩
  · rintro ⟨d, o, more, bits, v, hd, ho, hlong⟩
    exact ⟨t, d, o, more, bits, v, rfl, hd, ho, hlong⟩

/-- Checking fails on a list where it fails on the first token, or else on the rest. -/
theorem check_cons_eq_error_iff (hequipped : ∀ u ∈ t :: rest, u.Equipped g)
    {fault : Token.Fault} :
    check g (t :: rest) = .error fault ↔
      (fault = .overlong .writing ∧ FailsAt g (t :: rest) 0) ∨
        (¬ FailsAt g (t :: rest) 0 ∧ check g rest = .error fault) := by
  rw [failsAt_zero_iff]
  cases hd : ofToken? g t with
  | none =>
    rw [check_cons_of_none (hequipped t (List.mem_cons_self ..)) hd, Except.bind_eq_error_iff]
    constructor
    · rintro (h | ⟨_, _, h⟩)
      · exact .inr ⟨by simp, h⟩
      · cases h
    · rintro (⟨_, _, _, _, _, _, h, _⟩ | ⟨_, h⟩)
      · cases h
      · exact .inl h
  | some d =>
    have hops : ∀ o ∈ operands t.line rest, o.Equipped g := by
      intro o ho
      exact hequipped o (List.mem_cons_of_mem t (mem_of_mem_operands ho))
    rw [check_cons_of_some hd, Except.bind_eq_error_iff]
    cases hcheck : checkOperands d t (operands t.line rest) with
    | error fault' =>
      obtain ⟨rfl, o, more, bits, v, ho, hlong⟩ := (checkOperands_eq_error_iff hops).mp hcheck
      constructor
      · rintro (h | ⟨_, h, _⟩)
        · cases h
          exact .inl ⟨rfl, d, o, more, bits, v, rfl, ho, hlong⟩
        · cases h
      · rintro (⟨rfl, _⟩ | ⟨hnot, _⟩)
        · exact .inl rfl
        · exact absurd ⟨d, o, more, bits, v, rfl, ho, hlong⟩ hnot
    | ok found =>
      have hnot : ¬ ∃ e o more bits v, some d = some e ∧ operands t.line rest = o :: more ∧
          Overlong e o bits v := by
        rintro ⟨_, o, more, bits, v, he, ho, hlong⟩
        cases he
        rw [(checkOperands_eq_error_iff hops).mpr ⟨rfl, o, more, bits, v, ho, hlong⟩] at hcheck
        cases hcheck
      constructor
      · rintro (h | ⟨_, _, h⟩)
        · cases h
        · rcases Except.bind_eq_error_iff.mp h with h | ⟨_, _, h⟩
          · exact .inr ⟨hnot, h⟩
          · cases h
      · rintro (⟨_, hfirst⟩ | ⟨_, h⟩)
        · exact absurd hfirst hnot
        · exact .inr ⟨found, rfl, Except.bind_eq_error_iff.mpr (.inl h)⟩

/-- Checking fails exactly when the first operand of some directive is too long to be
    shown. -/
theorem check_eq_error_iff {tokens : List Token} (hequipped : ∀ t ∈ tokens, t.Equipped g)
    {fault : Token.Fault} :
    check g tokens = .error fault ↔ fault = .overlong .writing ∧ ∃ i, FailsAt g tokens i := by
  induction tokens with
  | nil => simp [check, FailsAt]
  | cons t rest ih =>
    have hrest := ih fun u hu => hequipped u (List.mem_cons_of_mem t hu)
    rw [check_cons_eq_error_iff hequipped, hrest]
    constructor
    · rintro (⟨hfault, hfirst⟩ | ⟨_, hfault, i, hi⟩)
      · exact ⟨hfault, 0, hfirst⟩
      · exact ⟨hfault, i + 1, hi⟩
    · rintro ⟨hfault, hfails⟩
      -- An earlier directive may fail first, in the same way.
      by_cases hfirst : FailsAt g (t :: rest) 0
      · exact .inl ⟨hfault, hfirst⟩
      · have hlater : ∃ i, FailsAt g rest i :=
          (Nat.or_exists_add_one.mpr hfails).resolve_left hfirst
        exact .inr ⟨hfirst, hfault, hlater⟩

/-- What checking does with one token: it passes over it, or marks a directive and looks
    at its operands. -/
theorem check_cons_eq_ok {checked : List Token} {found : List Diagnostic}
    (h : check g (t :: rest) = .ok (checked, found)) :
    ∃ checked' first more, check g rest = .ok (checked', more) ∧ checked = mark g t :: checked' ∧
      found = first ++ more ∧
      ((ofToken? g t = none ∧ first = []) ∨
        ∃ d, ofToken? g t = some d ∧ checkOperands d t (operands t.line rest) = .ok first) := by
  unfold check at h
  split at h
  next hcat =>
    obtain ⟨name, hname, h⟩ := Except.bind_eq_ok_iff.mp h
    split at h
    next => cases h
    next d hd =>
      have hdirective : ofToken? g t = some d := by
        rw [ofToken?, if_pos hcat]
        cases hn : t.directiveName? with
        | none => rw [hn] at hname; cases hname
        | some n => rw [hn] at hname; cases hname; exact hd
      obtain ⟨first, hfirst, h⟩ := Except.bind_eq_ok_iff.mp h
      obtain ⟨⟨checked', more⟩, hmore, h⟩ := Except.bind_eq_ok_iff.mp h
      cases h
      refine ⟨checked', first, more, hmore, ?_, rfl, .inr ⟨d, hdirective, hfirst⟩⟩
      rw [mark, hdirective]
      rfl
  next hcat =>
    have hdirective : ofToken? g t = none := by rw [ofToken?, if_neg hcat]
    obtain ⟨⟨checked', more⟩, hmore, h⟩ := Except.bind_eq_ok_iff.mp h
    cases h
    refine ⟨checked', [], _, hmore, ?_, rfl, .inl ⟨hdirective, rfl⟩⟩
    rw [mark, hdirective]
    rfl

/-- Checking marks the directives and changes nothing else. -/
theorem eq_map_mark_of_check {tokens checked : List Token} {found : List Diagnostic}
    (h : check g tokens = .ok (checked, found)) : checked = tokens.map (mark g) := by
  induction tokens generalizing checked found with
  | nil =>
    cases h
    rfl
  | cons t rest ih =>
    obtain ⟨checked', _, _, hrest, rfl, _⟩ := check_cons_eq_ok h
    rw [List.map_cons, ih hrest]

/-- Checking says nothing exactly when every directive has one operand that it accepts. -/
theorem remarks_eq_nil_iff {tokens checked : List Token} {found : List Diagnostic}
    (h : check g tokens = .ok (checked, found)) : found = [] ↔ ∀ i, AcceptedAt g tokens i := by
  induction tokens generalizing checked found with
  | nil =>
    cases h
    simp [AcceptedAt]
  | cons t rest ih =>
    obtain ⟨checked', first, more, hrest, _, rfl, hfirst⟩ := check_cons_eq_ok h
    rw [← Nat.and_forall_add_one, List.append_eq_nil_iff, ih hrest]
    refine and_congr ?_ Iff.rfl
    rw [acceptedAt_zero_iff]
    rcases hfirst with ⟨hnone, rfl⟩ | ⟨d, hd, hfirst⟩
    · simp [hnone]
    · calc first = []
          ↔ checkOperands d t (operands t.line rest) = .ok [] := by
            rw [hfirst, Except.ok.injEq]
        _ ↔ ∃ o, operands t.line rest = [o] ∧ Accepts d o := checkOperands_eq_ok_nil_iff
        _ ↔ ∀ d, ofToken? g t = some d → ∃ o, operands t.line rest = [o] ∧ Accepts d o := by
            simp [hd]

theorem span_mark (g : Grammar) (t : Token) : (mark g t).span = t.span := by
  unfold mark
  cases ofToken? g t with
  | none => rfl
  | some d => rfl

theorem category_mark (g : Grammar) (t : Token) : (mark g t).category = t.category := by
  unfold mark
  cases ofToken? g t with
  | none => rfl
  | some d => rfl

theorem mark_of_category_ne (h : t.category ≠ .directiveKeyword) : mark g t = t := by
  rw [mark, ofToken?, if_neg h]
  rfl

theorem map_span_check {tokens checked : List Token} {found : List Diagnostic}
    (h : check g tokens = .ok (checked, found)) :
    checked.map Token.span = tokens.map Token.span := by
  rw [eq_map_mark_of_check h, List.map_map]
  exact List.map_congr_left fun t _ => span_mark g t

end Run

-- ---------------------------------------------------------------------------
-- In terms of lexemes
-- ---------------------------------------------------------------------------

/-- The lexeme is the keyword of the directive. -/
structure Names (g : Grammar) (l : Lexeme) (d : Directive) : Prop where
  kind : l.kind = .word
  mem : d ∈ g.directives
  text : l.text = "#" ++ d.name

/-- The lexeme is an operand that the directive takes: a string that is closed, or an
    integer literal that fits the width. -/
inductive Takes (d : Directive) (l : Lexeme) : Prop where
  | text (hd : d.operand = .text) (hl : l.kind = .string)
  | unsigned {bits : Nat} {v : Int} (hd : d.operand = .unsigned bits) (hl : l.kind = .word)
      (hv : Literal.IsInteger l.text.toList v) (hfits : 0 ≤ v ∧ v < 2 ^ bits)

/-- What checking sees in a token is what the lexeme is. -/
structure Seen (g : Grammar) (l : Lexeme) (t : Token) : Prop where
  equipped : t.Equipped g
  line_eq : t.line = l.line
  isOperand_iff : isOperand t = true ↔ l.kind ≠ .comment ∧ l.kind ≠ .punctuation
  string_iff : t.category = .stringLiteral ↔ l.kind = .string
  integer_iff : ∀ v, (t.category = .integerLiteral ∧ t.integerValue? = some v) ↔
    l.kind = .word ∧ Literal.IsInteger l.text.toList v
  directive_iff : ∀ d, ofToken? g t = some d ↔ Names g l d

section Lexemes

variable {g : Grammar}

theorem seen_of_classified (hg : g.Sound) {caseSensitive : Bool} {previous : Option Token}
    {l : Lexeme} {t : Token} (h : Token.Classified g caseSensitive previous l t) : Seen g l t where
  equipped := h.equipped hg
  line_eq := h.line_eq
  isOperand_iff := by
    cases h with
    | comment hkind | punctuation hkind => simp [isOperand, Token.ofLexeme, hkind]
    | unterminated hkind | malformed hkind => simp [isOperand, Token.invalid, Token.ofLexeme, hkind]
    | _ hkind => simp [isOperand, Token.ofLexeme, hkind]
  string_iff := h.category_eq_stringLiteral_iff
  integer_iff := fun v => h.integer_iff hg
  directive_iff := by
    intro d
    constructor
    · intro hd
      obtain ⟨hcat, name, hname, hd⟩ := category_of_ofToken? hd
      cases h with
      | @directive hkind e he hword =>
        cases hname
        rw [hg.directive?_eq_some_iff.mpr ⟨he, rfl⟩] at hd
        cases hd
        exact ⟨hkind, he, hword⟩
      | _ => cases hcat
    · rintro ⟨hkind, hd, hword⟩
      rcases h.of_lead hg hkind with ⟨_, hunknown⟩ | hform
      · exact absurd (.directive hd hword) hunknown
      · rw [leadOf_of_isDirective hword] at hform
        obtain ⟨e, he, heq, rfl⟩ := hform
        have hname : d.name = e.name := by
          have hchars := congrArg String.toList (hword.symm.trans heq)
          exact String.toList_inj.mp (by simpa using hchars)
        rw [← hname]
        exact hg.directive?_eq_some_iff.mpr ⟨hd, rfl⟩

/-- Checking sees the same in a jump operand and in the reference made of it. -/
theorem Seen.of_category_eq {l : Lexeme} {t u : Token} (h : Seen g l t)
    (ht : t.category = .identifier) (hu : u.category = .labelReference)
    (hline : u.line = t.line) : Seen g l u where
  equipped := by
    constructor
    all_goals
      rw [hu]
      exact nofun
  line_eq := hline.trans h.line_eq
  isOperand_iff := by
    rw [← h.isOperand_iff]
    simp [isOperand, ht, hu]
  string_iff := by
    rw [← h.string_iff, ht, hu]
    exact ⟨nofun, nofun⟩
  integer_iff := by
    intro v
    rw [← h.integer_iff, ht, hu]
    exact ⟨nofun, nofun⟩
  directive_iff := by
    intro d
    rw [← h.directive_iff, ofToken?, ofToken?, ht, hu]
    exact ⟨nofun, nofun⟩

theorem Seen.accepts_iff {d : Directive} {l : Lexeme} {t : Token} (h : Seen g l t)
    (hvalid : t.category ≠ .invalid) : Accepts d t ↔ Takes d l := by
  constructor
  · intro hacc
    cases hacc with
    | invalid ht => exact absurd ht hvalid
    | text hd ht => exact .text hd (h.string_iff.mp ht)
    | unsigned hd ht hv hfits =>
      obtain ⟨hkind, hint⟩ := (h.integer_iff _).mp ⟨ht, hv⟩
      exact .unsigned hd hkind hint ((fits_iff hd).mp hfits)
  · intro htakes
    cases htakes with
    | text hd hl => exact .text hd (h.string_iff.mpr hl)
    | unsigned hd hl hv hfits =>
      obtain ⟨hcat, hvalue⟩ := (h.integer_iff _).mpr ⟨hl, hv⟩
      exact .unsigned hd hcat hvalue ((fits_iff hd).mpr hfits)

variable {lexemes : List Lexeme} {tokens : List Token} (h : List.Forall₂ (Seen g) lexemes tokens)
  (hsorted : lexemes.Pairwise fun l q => l.line ≤ q.line)

include h

theorem exists_seen {i : Nat} {l : Lexeme} (hl : lexemes[i]? = some l) :
    ∃ t, tokens[i]? = some t ∧ Seen g l t := by
  obtain ⟨hi, rfl⟩ := List.getElem?_eq_some_iff.mp hl
  have hi' : i < tokens.length := h.length_eq ▸ hi
  exact ⟨_, List.getElem?_eq_getElem hi', h.get hi hi'⟩

theorem exists_seen_lexeme {i : Nat} {t : Token} (ht : tokens[i]? = some t) :
    ∃ l, lexemes[i]? = some l ∧ Seen g l t := by
  obtain ⟨hi, rfl⟩ := List.getElem?_eq_some_iff.mp ht
  have hi' : i < lexemes.length := h.length_eq ▸ hi
  exact ⟨_, List.getElem?_eq_getElem hi', h.get hi' hi⟩

theorem equipped_of_mem : ∀ t ∈ tokens, t.Equipped g := by
  intro t ht
  obtain ⟨i, hi⟩ := List.mem_iff_getElem?.mp ht
  obtain ⟨_, _, hseen⟩ := exists_seen_lexeme h hi
  exact hseen.equipped

theorem map_line_eq : tokens.map Token.line = lexemes.map Lexeme.line := by
  induction h with
  | nil => rfl
  | cons hseen _ ih => rw [List.map_cons, List.map_cons, hseen.line_eq, ih]

include hsorted

/-- The operands of a directive are seen in the tokens of its operands. -/
theorem forall₂_operands {i : Nat} {l : Lexeme} (hl : lexemes[i]? = some l) :
    List.Forall₂ (Seen g) (Lexeme.operands l.line (lexemes.drop (i + 1)))
      (operands l.line (tokens.drop (i + 1))) := by
  have hdrop := List.forall₂_drop (i + 1) h
  have hlines : (l.line :: (tokens.drop (i + 1)).map Token.line).Pairwise (· ≤ ·) := by
    obtain ⟨hi, rfl⟩ := List.getElem?_eq_some_iff.mp hl
    rw [map_line_eq hdrop, ← List.map_cons, ← List.drop_eq_getElem_cons hi, List.pairwise_map]
    exact hsorted.sublist (List.drop_sublist i lexemes)
  rw [operands_eq_filter hlines]
  refine List.rel_filter (fun q t hqt => ?_) hdrop
  simp only [Bool.and_eq_true, decide_eq_true_eq, hqt.isOperand_iff, hqt.line_eq]

/-- If nothing is invalid, directives are accepted exactly when each is followed on its
    line by one operand that it takes. -/
theorem acceptedAt_iff (hvalid : ∀ t ∈ tokens, t.category ≠ .invalid) {i : Nat} :
    AcceptedAt g tokens i ↔ ∀ (l : Lexeme) (d : Directive), lexemes[i]? = some l → Names g l d →
      ∃ o, Lexeme.operands l.line (lexemes.drop (i + 1)) = [o] ∧ Takes d o := by
  have hmem {line : Int} {u : Token} (hu : operands line (tokens.drop (i + 1)) = [u]) :
      u.category ≠ .invalid := by
    have hu : u ∈ operands line (tokens.drop (i + 1)) := by rw [hu]; exact List.mem_cons_self ..
    exact hvalid u (List.mem_of_mem_drop (mem_of_mem_operands hu))
  constructor
  · intro hacc l d hl hd
    obtain ⟨t, ht, hseen⟩ := exists_seen h hl
    obtain ⟨u, hu, hacc⟩ := hacc t d ht ((hseen.directive_iff d).mpr hd)
    have hops := forall₂_operands h hsorted hl
    rw [← hseen.line_eq, hu] at hops
    obtain ⟨o, _, hou, hnil, ho⟩ := List.forall₂_cons_right_iff.mp hops
    cases List.forall₂_nil_right_iff.mp hnil
    exact ⟨o, hseen.line_eq ▸ ho, (hou.accepts_iff (hmem hu)).mp hacc⟩
  · intro htakes t d ht hd
    obtain ⟨l, hl, hseen⟩ := exists_seen_lexeme h ht
    obtain ⟨o, ho, htakes⟩ := htakes l d hl ((hseen.directive_iff d).mp hd)
    have hops := forall₂_operands h hsorted hl
    rw [ho, ← hseen.line_eq] at hops
    obtain ⟨u, _, hou, hnil, hu⟩ := List.forall₂_cons_left_iff.mp hops
    cases List.forall₂_nil_left_iff.mp hnil
    exact ⟨u, hu, (hou.accepts_iff (hmem hu)).mpr htakes⟩

/-- Checking fails at a directive whose first operand is an integer literal too long to
    be shown. -/
theorem failsAt_iff (hbits : ∀ d ∈ g.directives, ∀ bits, d.operand = .unsigned bits →
      bits ≤ Decimal.maxDigits) {i : Nat} :
    FailsAt g tokens i ↔ ∃ (l : Lexeme) (d : Directive) (o : Lexeme) (more : List Lexeme)
      (bits : Nat) (v : Int), lexemes[i]? = some l ∧ Names g l d ∧ d.operand = .unsigned bits ∧
        Lexeme.operands l.line (lexemes.drop (i + 1)) = o :: more ∧ o.kind = .word ∧
        Literal.IsInteger o.text.toList v ∧ 10 ^ Decimal.maxDigits ≤ v.natAbs := by
  constructor
  · rintro ⟨t, d, u, _, bits, v, ht, hd, hu, hlong⟩
    obtain ⟨l, hl, hseen⟩ := exists_seen_lexeme h ht
    have hops := forall₂_operands h hsorted hl
    rw [← hseen.line_eq, hu] at hops
    obtain ⟨o, more, hou, _, ho⟩ := List.forall₂_cons_right_iff.mp hops
    obtain ⟨hkind, hv⟩ := (hou.integer_iff v).mp ⟨hlong.category, hlong.value⟩
    exact ⟨l, d, o, more, bits, v, hl, (hseen.directive_iff d).mp hd, hlong.operand,
      hseen.line_eq ▸ ho, hkind, hv, Decimal.isOverlong_iff.mp hlong.isOverlong⟩
  · rintro ⟨l, d, o, more, bits, v, hl, hd, hoperand, ho, hkind, hv, hlong⟩
    obtain ⟨t, ht, hseen⟩ := exists_seen h hl
    have hops := forall₂_operands h hsorted hl
    rw [ho, ← hseen.line_eq] at hops
    obtain ⟨u, more', hou, _, hu⟩ := List.forall₂_cons_left_iff.mp hops
    obtain ⟨hcat, hvalue⟩ := (hou.integer_iff v).mpr ⟨hkind, hv⟩
    have hlong' := Decimal.isOverlong_iff.mpr hlong
    exact ⟨t, d, u, more', bits, v, ht, (hseen.directive_iff d).mpr hd, hu, hoperand, hcat, hvalue,
      not_fits_of_isOverlong hoperand (hbits d hd.mem bits hoperand) hlong', hlong'⟩

end Lexemes

end AsmHighlight.Directive
