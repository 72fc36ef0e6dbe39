-- SUMMARY: Classification of a whole document, in terms of what stands around each lexeme.
import AsmHighlight.Proofs.Token.Classified
import Mathlib.Data.List.Forall2

/-!
# Runs of classification

A document is classified from left to right, and each lexeme in the light of
the token before it. `classifyFrom_eq_ok` takes such a run apart: the token at
each place comes from the lexeme at that place and the token before it.

What a token before it can tell, the lexemes tell as well: whether a lexeme is
the first of its line (`FirstOnLine`), and whether it follows a jump
(`followsJump`). `Run` is a run seen in this way, and does not mention how it
was computed.
-/

namespace AsmHighlight

/-- The item before place `i` of a list, where `previous` stands before the first. -/
def itemBefore {α : Type} (previous : Option α) (items : List α) : Nat → Option α
  | 0 => previous
  | i + 1 => items[i]?

theorem itemBefore_cons {α : Type} (previous : Option α) (item : α) (items : List α) (i : Nat) :
    itemBefore previous (item :: items) (i + 1) = itemBefore (some item) items i := by
  cases i with
  | zero => rfl
  | succ i => rfl

theorem exists_getElem?_of_succ {α : Type} {items : List α} {i : Nat} {item : α}
    (h : items[i + 1]? = some item) : ∃ before, items[i]? = some before := by
  obtain ⟨hi, _⟩ := List.getElem?_eq_some_iff.mp h
  exact ⟨_, List.getElem?_eq_getElem (Nat.lt_of_succ_lt hi)⟩

namespace Token

variable {g : Grammar} {caseSensitive : Bool}

/-- In a run that returns, each place holds the token of its lexeme, classified with
    the token before it if that stands on the same line. -/
theorem classifyFrom_eq_ok {previous : Option Token} {lexemes : List Lexeme} {tokens : List Token}
    (h : classifyFrom g caseSensitive previous lexemes = .ok tokens) :
    tokens.length = lexemes.length ∧ ∀ (i : Nat) (l : Lexeme) (t : Token),
      lexemes[i]? = some l → tokens[i]? = some t →
        classify g caseSensitive
          ((itemBefore previous tokens i).filter fun u => u.line = l.line) l = .ok t := by
  induction lexemes generalizing previous tokens with
  | nil =>
    cases h
    exact ⟨rfl, by simp⟩
  | cons first rest ih =>
    obtain ⟨token, htoken, h⟩ := Except.bind_eq_ok_iff.mp h
    obtain ⟨more, hmore, h⟩ := Except.bind_eq_ok_iff.mp h
    cases h
    obtain ⟨hlen, hrest⟩ := ih hmore
    refine ⟨by simp [hlen], ?_⟩
    intro i l t hl ht
    cases i with
    | zero =>
      cases hl
      cases ht
      exact htoken
    | succ i =>
      rw [itemBefore_cons]
      exact hrest i l t hl ht

/-- A run fails exactly when some lexeme is a decimal word that is too long. -/
theorem exists_classifyFrom_eq_error_iff {previous : Option Token} {lexemes : List Lexeme}
    (hbreak : ∀ l ∈ lexemes, ∀ c ∈ l.text.toList, c ≠ '\n') :
    (∃ cause, classifyFrom g caseSensitive previous lexemes = .error cause) ↔
      ∃ l ∈ lexemes, l.kind = .word ∧ Literal.IsOverlongDecimal l.text.toList := by
  induction lexemes generalizing previous with
  | nil => simp [classifyFrom]
  | cons first rest ih =>
    have hfirst := hbreak first (List.mem_cons_self ..)
    have hrest := fun previous => @ih previous fun l hl => hbreak l (List.mem_cons_of_mem _ hl)
    simp only [classifyFrom, Except.bind_eq_error_iff, List.exists_mem_cons_iff]
    constructor
    · rintro ⟨cause, h | ⟨token, _, h | ⟨_, _, h⟩⟩⟩
      · obtain ⟨hkind, hlong, _⟩ := (classify_eq_error_iff hfirst).mp h
        exact .inl ⟨hkind, hlong⟩
      · exact .inr ((hrest _).mp ⟨cause, h⟩)
      · cases h
    · intro h
      generalize hctx : (previous.filter fun t => t.line = first.line) = context
      cases hc : classify g caseSensitive context first with
      | error cause => exact ⟨cause, .inl rfl⟩
      | ok token =>
        rcases h with ⟨hkind, hlong⟩ | h
        · rw [(classify_eq_error_iff hfirst).mpr ⟨hkind, hlong, rfl⟩] at hc
          cases hc
        · obtain ⟨cause, hcause⟩ := (hrest (some token)).mpr h
          exact ⟨cause, .inr ⟨token, rfl, .inl hcause⟩⟩

theorem map_span_classifyFrom {previous : Option Token} {lexemes : List Lexeme}
    {tokens : List Token} (h : classifyFrom g caseSensitive previous lexemes = .ok tokens) :
    tokens.map span = lexemes.map Lexeme.span := by
  induction lexemes generalizing previous tokens with
  | nil =>
    cases h
    rfl
  | cons first rest ih =>
    obtain ⟨token, htoken, h⟩ := Except.bind_eq_ok_iff.mp h
    obtain ⟨more, hmore, h⟩ := Except.bind_eq_ok_iff.mp h
    cases h
    rw [List.map_cons, List.map_cons, span_of_classify htoken, ih hmore]

end Token

-- ---------------------------------------------------------------------------
-- What stands around a lexeme
-- ---------------------------------------------------------------------------

namespace Lexeme

/-- No lexeme before place `i` stands on the line. -/
def FirstOnLine (lexemes : List Lexeme) (i : Nat) (line : Int) : Prop :=
  ∀ (j : Nat) (l : Lexeme), j < i → lexemes[j]? = some l → l.line ≠ line

/-- The lexeme at place `i` comes right after a jump on its line. The operand of a jump
    is no jump, even if it is spelled like one. -/
def followsJump (g : Grammar) (caseSensitive : Bool) (lexemes : List Lexeme) : Nat → Bool
  | 0 => false
  | i + 1 =>
    match lexemes[i]?, lexemes[i + 1]? with
    | some p, some l =>
      decide (p.line = l.line) && (decide (p.kind = .word) && g.isJump caseSensitive p.text &&
        !(followsJump g caseSensitive lexemes i && Literal.isNameChars p.text.toList))
    | _, _ => false

/-- The operands on a line, among the lexemes after a directive. -/
def operands (line : Int) (after : List Lexeme) : List Lexeme :=
  after.filter fun l => (decide (l.kind ≠ .comment) && decide (l.kind ≠ .punctuation)) &&
    l.line == line

end Lexeme

namespace Token

/-- The token before place `i`, if it stands on the line. -/
def contextAt (tokens : List Token) (i : Nat) (line : Int) : Option Token :=
  (itemBefore none tokens i).filter fun t => t.line = line

theorem any_contextAt_iff {tokens : List Token} {i : Nat} {line : Int} {p : Token → Bool} :
    (contextAt tokens i line).any p = true ↔
      ∃ j t, i = j + 1 ∧ tokens[j]? = some t ∧ t.line = line ∧ p t = true := by
  cases i with
  | zero => simp [contextAt, itemBefore]
  | succ j =>
    cases ht : tokens[j]? with
    | none => simp [contextAt, itemBefore, ht]
    | some t =>
      by_cases hline : t.line = line
      · simp [contextAt, itemBefore, ht, hline]
      · simp [contextAt, itemBefore, ht, hline]

/-- A lexeme has no token before it on its line exactly when it is the first there, if
    tokens stand on the lines of their lexemes and these never go back. -/
theorem contextAt_eq_none_iff_of_lines_sorted {lexemes : List Lexeme} {tokens : List Token}
    (hsorted : lexemes.Pairwise fun l q => l.line ≤ q.line)
    (hlines : ∀ (i : Nat) (l : Lexeme), lexemes[i]? = some l →
      ∃ t, tokens[i]? = some t ∧ t.line = l.line)
    {i : Nat} {l : Lexeme} (hl : lexemes[i]? = some l) :
    contextAt tokens i l.line = none ↔ Lexeme.FirstOnLine lexemes i l.line := by
  have hle {i j : Nat} {l q : Lexeme} (hij : i < j) (hl : lexemes[i]? = some l)
      (hq : lexemes[j]? = some q) : l.line ≤ q.line := by
    obtain ⟨hi, rfl⟩ := List.getElem?_eq_some_iff.mp hl
    obtain ⟨hj, rfl⟩ := List.getElem?_eq_some_iff.mp hq
    exact List.pairwise_iff_getElem.mp hsorted i j hi hj hij
  cases i with
  | zero => exact ⟨fun _ j _ hj => absurd hj (Nat.not_lt_zero j), fun _ => rfl⟩
  | succ i =>
    obtain ⟨p, hp⟩ := exists_getElem?_of_succ hl
    obtain ⟨t, ht, hline⟩ := hlines i p hp
    have hcontext : contextAt tokens (i + 1) l.line = none ↔ p.line ≠ l.line := by
      simp [contextAt, itemBefore, ht, hline]
    rw [hcontext]
    constructor
    · intro hne j q hj hq hline
      -- Lines never go back, so the lexeme just before stands between the two.
      have hpl := hle (Nat.lt_succ_self i) hp hl
      rcases Nat.lt_succ_iff_lt_or_eq.mp hj with hj | rfl
      · have hqp := hle hj hq hp
        omega
      · rw [hp] at hq
        cases hq
        exact hne hline
    · intro hfirst
      exact hfirst i p (Nat.lt_succ_self i) hp

/-- The tokens are what the rules make of the lexemes, whose lines never go back. -/
structure Run (g : Grammar) (caseSensitive : Bool) (lexemes : List Lexeme) (tokens : List Token) :
    Prop where
  length_eq : tokens.length = lexemes.length
  classified : ∀ (i : Nat) (l : Lexeme) (t : Token), lexemes[i]? = some l → tokens[i]? = some t →
    Classified g caseSensitive (contextAt tokens i l.line) l t
  lines_sorted : lexemes.Pairwise fun l q => l.line ≤ q.line

namespace Run

variable {g : Grammar} {caseSensitive : Bool} {lexemes : List Lexeme} {tokens : List Token}
  (h : Run g caseSensitive lexemes tokens)

include h

theorem exists_token {i : Nat} {l : Lexeme} (hl : lexemes[i]? = some l) :
    ∃ t, tokens[i]? = some t ∧ Classified g caseSensitive (contextAt tokens i l.line) l t := by
  obtain ⟨hi, _⟩ := List.getElem?_eq_some_iff.mp hl
  obtain ⟨t, ht⟩ : ∃ t, tokens[i]? = some t :=
    ⟨_, List.getElem?_eq_getElem (by rw [h.length_eq]; exact hi)⟩
  exact ⟨t, ht, h.classified i l t hl ht⟩

theorem exists_lexeme {i : Nat} {t : Token} (ht : tokens[i]? = some t) :
    ∃ l, lexemes[i]? = some l ∧ Classified g caseSensitive (contextAt tokens i l.line) l t := by
  obtain ⟨hi, _⟩ := List.getElem?_eq_some_iff.mp ht
  obtain ⟨l, hl⟩ : ∃ l, lexemes[i]? = some l :=
    ⟨_, List.getElem?_eq_getElem (by rw [← h.length_eq]; exact hi)⟩
  exact ⟨l, hl, h.classified i l t hl ht⟩

theorem exists_classified :
    List.Forall₂ (fun l t => ∃ previous, Classified g caseSensitive previous l t)
      lexemes tokens := by
  rw [List.forall₂_iff_get]
  refine ⟨h.length_eq.symm, fun i hl ht => ?_⟩
  exact ⟨_, h.classified i _ _ (List.getElem?_eq_getElem hl) (List.getElem?_eq_getElem ht)⟩

theorem equipped (hg : g.Sound) : ∀ t ∈ tokens, t.Equipped g := by
  intro t ht
  obtain ⟨i, hi⟩ := List.mem_iff_getElem?.mp ht
  obtain ⟨_, _, hclass⟩ := h.exists_lexeme hi
  exact hclass.equipped hg

/-- A lexeme has no token before it on its line exactly when it is the first there. -/
theorem contextAt_eq_none_iff {i : Nat} {l : Lexeme} (hl : lexemes[i]? = some l) :
    contextAt tokens i l.line = none ↔ Lexeme.FirstOnLine lexemes i l.line := by
  refine contextAt_eq_none_iff_of_lines_sorted h.lines_sorted ?_ hl
  intro j p hp
  obtain ⟨t, ht, hclass⟩ := h.exists_token hp
  exact ⟨t, ht, hclass.line_eq⟩

/-- The token before a lexeme on its line is a jump exactly when the lexeme follows one. -/
theorem any_isJump_contextAt (hg : g.Sound) {i : Nat} {l : Lexeme} (hl : lexemes[i]? = some l) :
    (contextAt tokens i l.line).any (isJump g caseSensitive) =
      Lexeme.followsJump g caseSensitive lexemes i := by
  induction i generalizing l with
  | zero => rfl
  | succ i ih =>
    obtain ⟨p, hp⟩ := exists_getElem?_of_succ hl
    obtain ⟨t, ht, hclass⟩ := h.exists_token hp
    have hjump := hclass.isJump_eq hg
    rw [ih hp] at hjump
    simp only [Lexeme.followsJump, hl, hp, contextAt, itemBefore, ht]
    rw [← hjump, ← hclass.line_eq]
    by_cases hline : t.line = l.line
    · simp [hline]
    · simp [hline]

end Run

end Token

end AsmHighlight
