-- SUMMARY: Checking directives in a relocated document, and in one that is put together.
import AsmHighlight.Proofs.Directive.Checked
import AsmHighlight.Proofs.Label.Relocated

/-!
# Checking after a relocation

Checking reads the categories, texts and values of tokens and asks which of them
share a line. It does not read the texts of mnemonics and registers, which its
remarks call by their category. A change of the tokens that keeps what is read
(`Moves`) leads to the changed tokens and the moved remarks (`check_map`).
Relocation is such a change, and so is forgetting what is known of references
(`Token.bare`).

Operands stand on the line of their directive, so parts of a document that share
no line are checked on their own (`check_append`).
-/

namespace AsmHighlight.Directive

/-- To checking, the change of tokens is a relocation. -/
structure Moves (ρ : Relocation) (f : Token → Token) : Prop where
  category : ∀ t, (f t).category = t.category
  text : ∀ t, t.category ∉ [.mnemonic, .register] → (f t).text = t.text
  range : ∀ t, (f t).range = t.range.relocate ρ
  directiveName? : ∀ t, t.category = .directiveKeyword → (f t).directiveName? = t.directiveName?
  integerValue? : ∀ t, t.category = .integerLiteral → (f t).integerValue? = t.integerValue?
  annotate : ∀ d t, t.category = .directiveKeyword → annotate d (f t) = f (annotate d t)

theorem moves_relocate (ρ : Relocation) : Moves ρ (Token.relocate ρ) where
  category _ := rfl
  text _ _ := rfl
  range _ := rfl
  directiveName? t _ := t.directiveName?_relocate
  integerValue? t _ := t.integerValue?_relocate
  annotate _ _ _ := rfl

theorem bare_of_category_ne {t : Token} (h : t.category ≠ .labelReference) : t.bare = t := by
  rw [Token.bare, if_neg h]

theorem moves_bare : Moves .refl Token.bare where
  category t := by
    unfold Token.bare
    split <;> rfl
  text t _ := by
    unfold Token.bare
    split <;> rfl
  range t := by
    unfold Token.bare
    split <;> rfl
  directiveName? t ht := by rw [bare_of_category_ne (by rw [ht]; decide)]
  integerValue? t ht := by rw [bare_of_category_ne (by rw [ht]; decide)]
  annotate d t ht := by
    have hannotated : (annotate d t).category = .directiveKeyword := ht
    rw [bare_of_category_ne (by rw [ht]; decide), bare_of_category_ne (by rw [hannotated]; decide)]

namespace Moves

variable {ρ : Relocation} {f : Token → Token} (hf : Moves ρ f)

include hf

theorem line_eq_iff (t u : Token) : (f t).line = (f u).line ↔ t.line = u.line := by
  simp only [Token.line, hf.range]
  exact ρ.line_start _ _

theorem operands_map (t : Token) (after : List Token) :
    operands (f t).line (after.map f) = (operands t.line after).map f := by
  have hline : (fun u => u.line == (f t).line) ∘ f = fun u => u.line == t.line := by
    funext u
    rw [Function.comp_apply, Bool.eq_iff_iff, beq_iff_eq, beq_iff_eq]
    exact hf.line_eq_iff u t
  have hoperand : isOperand ∘ f = isOperand := by
    funext u
    simp only [Function.comp_apply, isOperand, hf.category]
  rw [operands, operands, List.takeWhile_map, List.filter_map, hline, hoperand]

theorem text_keyword {keyword : Token} (hkeyword : keyword.category = .directiveKeyword) :
    (f keyword).text = keyword.text :=
  hf.text keyword (by rw [hkeyword]; decide)

theorem describe_map (o : Token) : describe (f o) = describe o := by
  unfold describe
  rw [hf.category]
  split
  case h_8 hregister hmnemonic _ _ _ =>
    rw [hf.text o (by simpa using ⟨hmnemonic, hregister⟩)]
  all_goals rfl

theorem checkFirst_map (d : Directive) {keyword : Token}
    (hkeyword : keyword.category = .directiveKeyword) (o : Token) :
    checkFirst d (f keyword) (f o) =
      (checkFirst d keyword o).map (List.map (Diagnostic.relocate ρ)) := by
  unfold checkFirst
  simp only [hf.category, hf.text_keyword hkeyword, hf.range, hf.describe_map]
  by_cases hinvalid : o.category = .invalid
  · rw [if_pos hinvalid, if_pos hinvalid]
    rfl
  rw [if_neg hinvalid, if_neg hinvalid]
  by_cases hcat : o.category = d.expectedCategory
  · rw [if_neg (not_not.mpr hcat), if_neg (not_not.mpr hcat)]
    cases hoperand : d.operand with
    | text => rfl
    | unsigned bits =>
      have hinteger : o.category = .integerLiteral := by rw [hcat, expectedCategory, hoperand]
      simp only [hf.integerValue? o hinteger]
      cases o.integerValue? with
      | none => rfl
      | some value =>
        simp only [Token.require, bind, Except.bind]
        by_cases hfits : d.fits value = true
        · rw [if_pos hfits, if_pos hfits]
          rfl
        · rw [if_neg hfits, if_neg hfits]
          cases Decimal.write value with
          | error cause => rfl
          | ok shown => rfl
  · rw [if_pos hcat, if_pos hcat]
    rfl

theorem checkSurplus_map {keyword : Token} (hkeyword : keyword.category = .directiveKeyword)
    (surplus : List Token) :
    checkSurplus (f keyword) (surplus.map f) =
      (checkSurplus keyword surplus).map (Diagnostic.relocate ρ) := by
  cases surplus with
  | nil => rfl
  | cons first more =>
    simp only [checkSurplus, List.map_cons, List.length_map, hf.text_keyword hkeyword, hf.range,
      List.getLastD_map]
    rfl

theorem checkOperands_map (d : Directive) {keyword : Token}
    (hkeyword : keyword.category = .directiveKeyword) (ops : List Token) :
    checkOperands d (f keyword) (ops.map f) =
      (checkOperands d keyword ops).map (List.map (Diagnostic.relocate ρ)) := by
  cases ops with
  | nil =>
    simp only [checkOperands, List.map_nil, hf.text_keyword hkeyword, hf.range]
    rfl
  | cons o surplus =>
    simp only [checkOperands, List.map_cons, hf.checkFirst_map d hkeyword,
      hf.checkSurplus_map hkeyword]
    cases checkFirst d keyword o with
    | error fault => rfl
    | ok found => exact congrArg Except.ok (List.map_append ..).symm

/-- The changed tokens lead to the changed result and the moved remarks. -/
theorem check_map {g : Grammar} (tokens : List Token) :
    check g (tokens.map f) =
      (check g tokens).map (Prod.map (List.map f) (List.map (Diagnostic.relocate ρ))) := by
  induction tokens with
  | nil => rfl
  | cons t rest ih =>
    rw [List.map_cons, check, check, hf.category]
    split
    next hcat =>
      rw [hf.directiveName? t hcat]
      cases t.directiveName? with
      | none => rfl
      | some name =>
        simp only [Token.require, bind, Except.bind]
        cases g.directive? name with
        | none => rfl
        | some d =>
          simp only [hf.operands_map, hf.checkOperands_map d hcat, ih]
          cases checkOperands d t (operands t.line rest) with
          | error fault => rfl
          | ok found =>
            cases check g rest with
            | error fault => rfl
            | ok checked =>
              refine congrArg Except.ok (Prod.ext ?_ (List.map_append ..).symm)
              exact congrArg (· :: checked.1.map f) (hf.annotate d t hcat)
    next =>
      rw [ih]
      cases check g rest with
      | error fault => rfl
      | ok checked => rfl

end Moves

/-- What is known of references does not matter to checking. -/
theorem map_bare_check {g : Grammar} (tokens : List Token) :
    (check g tokens).map (Prod.map (List.map Token.bare) id) = check g (tokens.map Token.bare) := by
  have hrefl : List.map (Diagnostic.relocate .refl) = id := List.map_id_fun
  rw [moves_bare.check_map, hrefl]

-- ---------------------------------------------------------------------------
-- Parts that share no line
-- ---------------------------------------------------------------------------

theorem operands_append {line : Int} {after more : List Token}
    (h : ∀ u ∈ more, u.line ≠ line) : operands line (after ++ more) = operands line after := by
  have hnone : more.takeWhile (fun u => u.line == line) = [] := by
    cases more with
    | nil => rfl
    | cons u more => exact List.takeWhile_cons_of_neg (by simpa using h u (List.mem_cons_self ..))
  rw [operands, operands, List.takeWhile_append, hnone, List.append_nil]
  split
  next hlength => rw [(List.takeWhile_prefix _).eq_of_length hlength]
  next => rfl

theorem check_append {g : Grammar} {tokens more : List Token}
    (h : ∀ t ∈ tokens, ∀ u ∈ more, t.line ≠ u.line) :
    check g (tokens ++ more) = do
      let checked ← check g tokens
      let others ← check g more
      return (checked.1 ++ others.1, checked.2 ++ others.2) := by
  induction tokens with
  | nil =>
    cases hmore : check g more with
    | error fault => exact hmore
    | ok others => exact hmore
  | cons t rest ih =>
    have hrest := ih fun u hu => h u (List.mem_cons_of_mem t hu)
    have hoperands : operands t.line (rest ++ more) = operands t.line rest :=
      operands_append fun u hu => (h t (List.mem_cons_self ..) u hu).symm
    rw [List.cons_append, check, check, hrest, hoperands]
    split
    next =>
      cases Token.require "directive" t.directiveName? with
      | error fault => rfl
      | ok name =>
        simp only [bind, Except.bind]
        cases g.directive? name with
        | none => rfl
        | some d =>
          simp only
          cases checkOperands d t (operands t.line rest) with
          | error fault => rfl
          | ok found =>
            cases check g rest with
            | error fault => rfl
            | ok checked =>
              cases check g more with
              | error fault => rfl
              | ok others =>
                exact congrArg (fun remarks => Except.ok (_, remarks)) (List.append_assoc ..).symm
    next =>
      cases check g rest with
      | error fault => rfl
      | ok checked =>
        cases check g more with
        | error fault => rfl
        | ok others => rfl

end AsmHighlight.Directive
