-- SUMMARY: What an editor decodes from the semantic tokens of a stream, and their modifier bits.
import AsmHighlight.Stream.Semantic

/-!
# Semantic tokens, decoded

An editor decodes semantic tokens by running sums (`decode`) and gets back the
place, length, category and modifier bits of every token
(`decodeFrom_semanticFrom`). The distances are never negative if the tokens come
in reading order (`semanticFrom_nonneg`).

The last integer of each group of five holds the modifier bits of its token
(`getElem?_semanticTokens`). Bit 0 is that of a declaration, and bit 1 that of a
reference whose label is not declared (`testBit_zero_modifiers`,
`testBit_modifiers`).
-/

namespace AsmHighlight

/-- The position is not behind the other in reading order. -/
def Position.UpTo (p q : Position) : Prop :=
  p.line < q.line ∨ (p.line = q.line ∧ p.column ≤ q.column)

theorem Position.UpTo.trans {p q r : Position} (h : p.UpTo q) (h' : q.UpTo r) : p.UpTo r := by
  unfold UpTo at *
  omega

theorem Token.Category.getElem?_index (c : Category) : all[c.index]? = some c := by
  cases c <;> rfl

namespace Stream

-- ---------------------------------------------------------------------------
-- Modifier bits
-- ---------------------------------------------------------------------------

theorem getElem?_semanticFrom (line char : Int) (tokens : List Token) (i : Nat) :
    (semanticFrom line char tokens)[5 * i + 4]? = tokens[i]?.map modifiers := by
  induction tokens generalizing line char i with
  | nil => rfl
  | cons t rest ih =>
    cases i with
    | zero => rfl
    | succ i =>
      rw [show 5 * (i + 1) + 4 = 5 * i + 4 + 5 by omega]
      exact ih _ _ i

/-- Every token has its modifier bits in the group of its place, and there are no others. -/
theorem getElem?_semanticTokens (s : Stream) (i : Nat) :
    s.semanticTokens[5 * i + 4]? = s.tokens[i]?.map modifiers :=
  getElem?_semanticFrom 0 0 s.tokens i

theorem testBit_modifiers (t : Token) :
    (modifiers t).toNat.testBit 1 = true ↔
      t.category = .labelReference ∧ t.isResolved = false := by
  unfold modifiers
  split
  next hcat =>
    rw [hcat]
    exact ⟨fun hbit => absurd hbit (by decide), nofun⟩
  next hcat =>
    rw [hcat]
    cases t.isResolved with
    | true => simp
    | false => exact ⟨fun _ => ⟨rfl, rfl⟩, fun _ => rfl⟩
  next hother => exact ⟨fun hbit => absurd hbit (by decide), fun hunresolved =>
      absurd hunresolved.1 hother⟩

theorem testBit_zero_modifiers (t : Token) :
    (modifiers t).toNat.testBit 0 = true ↔ t.category = .labelDeclaration := by
  unfold modifiers
  split
  next hcat => exact ⟨fun _ => hcat, fun _ => rfl⟩
  next hcat =>
    rw [hcat]
    cases t.isResolved with
    | true => exact ⟨fun hbit => absurd hbit (by decide), nofun⟩
    | false => exact ⟨fun hbit => absurd hbit (by decide), nofun⟩
  next hother _ => exact ⟨fun hbit => absurd hbit (by decide), fun hcat => absurd hcat hother⟩

theorem modifiers_nonneg (t : Token) : 0 ≤ modifiers t := by
  unfold modifiers
  split
  next => decide
  next => split <;> decide
  next => decide

-- ---------------------------------------------------------------------------
-- Decoding
-- ---------------------------------------------------------------------------

/-- A token as an editor sees it. Lines and characters are counted from zero. -/
structure Decoded where
  line : Int
  char : Int
  length : Int
  category : Int
  modifiers : Int
  deriving DecidableEq, Repr

namespace Decoded

/-- What an editor should see of a token. -/
def ofToken (t : Token) : Decoded where
  line := t.range.start.line - 1
  char := t.range.start.column - 1
  length := t.text.length
  category := t.category.index
  modifiers := Stream.modifiers t

/-- The token ends before the other begins. -/
def Before (a b : Decoded) : Prop :=
  a.line < b.line ∨ (a.line = b.line ∧ a.char + a.length ≤ b.char)

end Decoded

/-- The tokens after one on the given line and character, from groups of five integers. A
    token on another line has its distance from the start of that line. -/
def decodeFrom (line char : Int) : List Int → List Decoded
  | deltaLine :: deltaChar :: length :: category :: bits :: rest =>
    let tokenLine := line + deltaLine
    let tokenChar := if deltaLine = 0 then char + deltaChar else deltaChar
    ⟨tokenLine, tokenChar, length, category, bits⟩ :: decodeFrom tokenLine tokenChar rest
  | _ => []

/-- The tokens that an editor decodes. -/
def decode (data : List Int) : List Decoded :=
  decodeFrom 0 0 data

theorem length_semanticFrom (line char : Int) (tokens : List Token) :
    (semanticFrom line char tokens).length = 5 * tokens.length := by
  induction tokens generalizing line char with
  | nil => rfl
  | cons t rest ih =>
    simp only [semanticFrom, List.length_cons, ih]
    omega

/-- Decoding gives back the tokens, in whatever order they come. -/
theorem decodeFrom_semanticFrom {tokens : List Token}
    (h : ∀ t ∈ tokens, t.range.length = t.text.length) (line char : Int) :
    decodeFrom line char (semanticFrom line char tokens) = tokens.map Decoded.ofToken := by
  induction tokens generalizing line char with
  | nil => rfl
  | cons t rest ih =>
    have hline : line + (t.range.start.line - 1 - line) = t.range.start.line - 1 := by omega
    have hchar : (if t.range.start.line - 1 - line = 0 then
          char + (if t.range.start.line - 1 - line = 0 then t.range.start.column - 1 - char
            else t.range.start.column - 1)
        else if t.range.start.line - 1 - line = 0 then t.range.start.column - 1 - char
          else t.range.start.column - 1) = t.range.start.column - 1 := by
      split
      next => omega
      next => rfl
    simp only [semanticFrom, decodeFrom, hline, hchar, List.map_cons, Decoded.ofToken,
      h t (List.mem_cons_self ..), ih fun u hu => h u (List.mem_cons_of_mem t hu)]

/-- Tokens in reading order have no negative distance from each other. -/
theorem semanticFrom_nonneg {tokens : List Token} {line char : Int}
    (hfirst : ∀ t ∈ tokens, Position.UpTo ⟨line + 1, char + 1, 0⟩ t.range.start)
    (hcolumn : ∀ t ∈ tokens, 1 ≤ t.range.start.column) (hlength : ∀ t ∈ tokens, 0 ≤ t.range.length)
    (hsorted : tokens.Pairwise fun t u => t.range.start.UpTo u.range.start) :
    ∀ n ∈ semanticFrom line char tokens, 0 ≤ n := by
  induction tokens generalizing line char with
  | nil => simp [semanticFrom]
  | cons t rest ih =>
    obtain ⟨hlater, hrest⟩ := List.pairwise_cons.mp hsorted
    have ht := hfirst t (List.mem_cons_self ..)
    have htcolumn := hcolumn t (List.mem_cons_self ..)
    simp only [Position.UpTo] at ht
    have hmore : ∀ n ∈ semanticFrom (t.range.start.line - 1) (t.range.start.column - 1) rest,
        0 ≤ n := by
      refine ih (fun u hu => ?_) (fun u hu => hcolumn u (List.mem_cons_of_mem t hu))
        (fun u hu => hlength u (List.mem_cons_of_mem t hu)) hrest
      have hu := hlater u hu
      simp only [Position.UpTo] at hu ⊢
      omega
    simp only [semanticFrom, List.forall_mem_cons]
    refine ⟨by omega, ?_, hlength t (List.mem_cons_self ..), Int.natCast_nonneg _,
      modifiers_nonneg t, hmore⟩
    split
    next => omega
    next => omega

/-- The distances of a token from the token before it. -/
theorem deltas_semanticFrom (line char : Int) {tokens : List Token} {i : Nat} {t u : Token}
    (ht : tokens[i]? = some t) (hu : tokens[i + 1]? = some u) :
    (semanticFrom line char tokens)[5 * (i + 1)]? =
        some (u.range.start.line - 1 - (t.range.start.line - 1)) ∧
      (semanticFrom line char tokens)[5 * (i + 1) + 1]? =
        some (if u.range.start.line - 1 - (t.range.start.line - 1) = 0 then
          u.range.start.column - 1 - (t.range.start.column - 1) else u.range.start.column - 1) := by
  induction tokens generalizing line char i with
  | nil => cases ht
  | cons first rest ih =>
    cases i with
    | zero =>
      cases ht
      obtain ⟨more, rfl⟩ : ∃ more, rest = u :: more := by
        cases rest with
        | nil => cases hu
        | cons next more => cases hu; exact ⟨more, rfl⟩
      exact ⟨rfl, rfl⟩
    | succ i =>
      rw [show 5 * (i + 1 + 1) = 5 * (i + 1) + 5 by omega]
      exact ih _ _ ht hu

end Stream

end AsmHighlight
