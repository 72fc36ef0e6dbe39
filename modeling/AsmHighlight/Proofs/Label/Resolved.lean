-- SUMMARY: What resolution changes and what it reports.
import AsmHighlight.Label.Resolve
import AsmHighlight.Proofs.Label.Collected

/-!
# Resolved references

Resolution works place by place (`resolveFrom_getElem?`): it makes a reference
of each jump operand, leaves every other token as it is, and reports exactly the
operands that the table does not know (`enumerates_unresolved`).
-/

namespace AsmHighlight.Label

theorem category_reference (table : Table) (t : Token) :
    (reference table t).category = .labelReference := by
  unfold reference
  split <;> rfl

theorem span_reference (table : Table) (t : Token) : (reference table t).span = t.span := by
  unfold reference
  split <;> rfl

theorem text_reference (table : Table) (t : Token) : (reference table t).text = t.text :=
  congrArg Span.text (span_reference table t)

theorem range_reference (table : Table) (t : Token) : (reference table t).range = t.range :=
  congrArg Span.range (span_reference table t)

theorem name?_reference (table : Table) (t : Token) :
    (reference table t).name? = some t.text := by
  unfold reference
  split <;> rfl

/-- A reference is resolved exactly when the table knows its text. -/
theorem isResolved_reference (table : Table) (t : Token) :
    (reference table t).isResolved = (table.lookup t.text).isSome := by
  unfold reference
  split
  next hlookup => rw [hlookup]; rfl
  next hlookup => rw [hlookup]; rfl

/-- A reference carries the place that the table has for its text. -/
theorem declaration?_reference (table : Table) (t : Token) :
    (reference table t).declaration? = (table.lookup t.text).map Label.range := by
  unfold reference
  split
  next hlookup => rw [hlookup]; rfl
  next hlookup => rw [hlookup]; rfl

section Resolve

variable {g : Grammar} {caseSensitive : Bool} {severity : Severity} {table : Table}

/-- Resolution makes a reference of each jump operand and leaves the other tokens as
    they are. -/
theorem resolveFrom_getElem? (previous : Option Token) (tokens : List Token) (i : Nat) :
    (resolveFrom g caseSensitive severity table previous tokens).1[i]? =
      tokens[i]?.map fun t =>
        if isJumpOperand g caseSensitive (itemBefore previous tokens i) t then reference table t
        else t := by
  induction tokens generalizing previous i with
  | nil => simp [resolveFrom]
  | cons t rest ih =>
    cases i with
    | zero =>
      simp only [resolveFrom, itemBefore]
      split <;> simp_all
    | succ i =>
      have hstep : (resolveFrom g caseSensitive severity table previous (t :: rest)).1[i + 1]? =
          (resolveFrom g caseSensitive severity table (some t) rest).1[i]? := by
        simp only [resolveFrom]
        split <;> rfl
      rw [hstep, ih, itemBefore_cons]
      rfl

/-- At place `i` there is a jump operand that the table does not know, and the diagnostic
    reports it. -/
def UnresolvedAt (g : Grammar) (caseSensitive : Bool) (severity : Severity) (table : Table)
    (previous : Option Token) (tokens : List Token) (i : Nat) (d : Diagnostic) : Prop :=
  ∃ t, tokens[i]? = some t ∧ isJumpOperand g caseSensitive (itemBefore previous tokens i) t = true ∧
    table.lookup t.text = none ∧ d = unresolved severity table t

/-- Resolution reports the jump operands that the table does not know. -/
theorem enumerates_unresolved (previous : Option Token) (tokens : List Token) :
    Enumerates (UnresolvedAt g caseSensitive severity table previous tokens)
      (resolveFrom g caseSensitive severity table previous tokens).2 := by
  induction tokens generalizing previous with
  | nil => exact .nil (by simp [UnresolvedAt])
  | cons t rest ih =>
    have hrest : Enumerates
        (fun i => UnresolvedAt g caseSensitive severity table previous (t :: rest) (i + 1))
        (resolveFrom g caseSensitive severity table (some t) rest).2 := by
      refine (ih (some t)).congr fun i d => ?_
      simp only [UnresolvedAt, itemBefore_cons, List.getElem?_cons_succ]
    simp only [resolveFrom]
    split
    next hop =>
      cases hlookup : table.lookup t.text with
      | none => exact .cons ⟨t, rfl, hop, hlookup, rfl⟩ hrest
      | some label =>
        refine .of_succ ?_ hrest
        rintro d ⟨u, hu, _, hnone, _⟩
        cases hu
        rw [hlookup] at hnone
        cases hnone
    next hop =>
      refine .of_succ ?_ hrest
      rintro d ⟨u, hu, hop', _⟩
      cases hu
      exact hop hop'

/-- The token is a reference to a label that is not declared. -/
def isUnknownReference (t : Token) : Bool :=
  t.category = .labelReference && !t.isResolved

/-- Resolution leaves one unknown reference for each report. -/
theorem countP_isUnknownReference_resolveFrom {tokens : List Token}
    (h : ∀ t ∈ tokens, t.category ≠ .labelReference) (previous : Option Token) :
    (resolveFrom g caseSensitive severity table previous tokens).1.countP isUnknownReference =
      (resolveFrom g caseSensitive severity table previous tokens).2.length := by
  induction tokens generalizing previous with
  | nil => rfl
  | cons t rest ih =>
    obtain ⟨hfirst, hrest⟩ := List.forall_mem_cons.mp h
    have ih := ih hrest (some t)
    simp only [resolveFrom]
    split
    next =>
      have hunknown : isUnknownReference (reference table t) = (table.lookup t.text).isNone := by
        simp [isUnknownReference, category_reference, isResolved_reference]
      rw [List.countP_cons, hunknown, ih]
      split
      next => rw [List.length_cons]
      next => rfl
    next =>
      rw [List.countP_cons_of_neg (by simp [isUnknownReference, hfirst]), ih]

/-- Resolution reports nothing exactly when the table knows every jump operand. -/
theorem resolveFrom_snd_eq_nil_iff (previous : Option Token) (tokens : List Token) :
    (resolveFrom g caseSensitive severity table previous tokens).2 = [] ↔
      ∀ (i : Nat) (t : Token), tokens[i]? = some t →
        isJumpOperand g caseSensitive (itemBefore previous tokens i) t = true →
          (table.lookup t.text).isSome = true := by
  rw [(enumerates_unresolved previous tokens).eq_nil_iff]
  constructor
  · intro hnone i t ht hop
    rw [Option.isSome_iff_ne_none]
    exact fun hlookup => hnone i _ ⟨t, ht, hop, hlookup, rfl⟩
  · rintro hall i d ⟨t, ht, hop, hlookup, _⟩
    have hsome := hall i t ht hop
    rw [hlookup] at hsome
    cases hsome

theorem mem_resolveFrom {previous : Option Token} {tokens : List Token} {u : Token}
    (hu : u ∈ (resolveFrom g caseSensitive severity table previous tokens).1) :
    ∃ t ∈ tokens, u = t ∨ u = reference table t := by
  obtain ⟨i, hi⟩ := List.mem_iff_getElem?.mp hu
  rw [resolveFrom_getElem?] at hi
  obtain ⟨t, ht, rfl⟩ := Option.map_eq_some_iff.mp hi
  refine ⟨t, List.mem_of_getElem? ht, ?_⟩
  split
  next => exact .inr rfl
  next => exact .inl rfl

/-- Resolution keeps what an identifier shares with the reference made of it. -/
theorem forall₂_resolveFrom {α : Type} {R : α → Token → Prop}
    (hR : ∀ x t, t.category = .identifier → R x t → R x (reference table t)) {items : List α}
    {tokens : List Token} (h : List.Forall₂ R items tokens) (previous : Option Token) :
    List.Forall₂ R items (resolveFrom g caseSensitive severity table previous tokens).1 := by
  induction h generalizing previous with
  | nil => exact .nil
  | @cons x t items tokens hxt _ ih =>
    simp only [resolveFrom]
    split
    next hop =>
      simp only [isJumpOperand, Bool.and_eq_true, beq_iff_eq] at hop
      exact .cons (hR x t hop.1 hxt) (ih (some t))
    next => exact .cons hxt (ih (some t))

theorem map_span_resolveFrom (previous : Option Token) (tokens : List Token) :
    (resolveFrom g caseSensitive severity table previous tokens).1.map Token.span =
      tokens.map Token.span := by
  apply List.ext_getElem?
  intro i
  rw [List.getElem?_map, List.getElem?_map, resolveFrom_getElem?, Option.map_map]
  congr 1
  funext t
  simp only [Function.comp_apply]
  split
  next => exact span_reference table t
  next => rfl

end Resolve

-- ---------------------------------------------------------------------------
-- In terms of lexemes
-- ---------------------------------------------------------------------------

section Lexemes

variable {g : Grammar} {caseSensitive : Bool} {lexemes : List Lexeme} {tokens : List Token}
  (hpass : Token.Pass g caseSensitive lexemes tokens)

include hpass

/-- The jump operands are the names with a jump before them on their line. -/
theorem isJumpOperand_iff {i : Nat} {l : Lexeme} {t : Token} (hl : lexemes[i]? = some l)
    (ht : tokens[i]? = some t) :
    isJumpOperand g caseSensitive (itemBefore none tokens i) t = true ↔
      l.kind = .word ∧ Literal.isNameChars l.text.toList = true ∧
        (Token.contextAt tokens i l.line).any (Token.isJump g caseSensitive) = true := by
  have hclass := hpass.classify_eq i l t hl ht
  have hbreak := hpass.unbroken l (List.mem_of_getElem? hl)
  have hbefore : ((itemBefore none tokens i).any fun p =>
        p.line == t.line && p.isJump g caseSensitive) =
      (Token.contextAt tokens i l.line).any (Token.isJump g caseSensitive) := by
    rw [Token.contextAt, Token.line_eq_of_span_eq (Token.span_of_classify hclass)]
    cases itemBefore none tokens i with
    | none => rfl
    | some p =>
      by_cases hline : p.line = l.line
      · simp [hline]
      · simp [hline]
  rw [isJumpOperand, hbefore, Bool.and_eq_true, beq_iff_eq, ← and_assoc]
  apply and_congr_left
  exact Token.category_eq_identifier_iff_of_isJump hbreak hclass

/-- With a sound grammar, the lexemes alone tell which names are jump operands. -/
theorem isJumpOperand_iff_followsJump (hg : g.Sound) {i : Nat} {l : Lexeme} {t : Token}
    (hl : lexemes[i]? = some l) (ht : tokens[i]? = some t) :
    isJumpOperand g caseSensitive (itemBefore none tokens i) t = true ↔
      l.kind = .word ∧ Literal.isNameChars l.text.toList = true ∧
        Lexeme.followsJump g caseSensitive lexemes i = true := by
  rw [isJumpOperand_iff hpass hl ht, (hpass.run hg).any_isJump_contextAt hg hl]

end Lexemes

end AsmHighlight.Label
