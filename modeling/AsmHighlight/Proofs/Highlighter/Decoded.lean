-- SUMMARY: The semantic tokens of a highlighted document are valid and lose nothing.
import AsmHighlight.Proofs.Highlighter.Steps
import AsmHighlight.Proofs.Stream.Semantic

/-!
# Semantic tokens of a document

The scan never goes back, neither in lines nor in the columns of a line, and
starts each line at its first column (`Tiling.upTo_start`). So the tokens of a
document come in reading order, each behind the end of the one before it, and
their semantic tokens decode to tokens that do not overlap
(`semanticTokens_decode`).
-/

namespace AsmHighlight

-- ---------------------------------------------------------------------------
-- Reading order
-- ---------------------------------------------------------------------------

namespace Position

theorem UpTo.refl (p : Position) : p.UpTo p :=
  .inr ⟨rfl, Int.le_refl _⟩

theorem upTo_shift (p : Position) (n : Nat) : p.UpTo (p.shift n) :=
  .inr ⟨rfl, by rw [column_shift]; omega⟩

/-- Reading a character leads onwards, and never before the first column. -/
theorem upTo_advance {p : Position} (hp : 1 ≤ p.column) (c : Char) (rest : List Char) :
    p.UpTo (p.advance c rest) ∧ 1 ≤ (p.advance c rest).column := by
  unfold advance
  split
  · exact ⟨.inl (Int.lt_succ _), Int.le_refl _⟩
  · exact ⟨p.upTo_shift 1, by rw [column_shift]; omega⟩

end Position

namespace Tiling

variable {p : Position} {cs : List Char} {spans : List Span}

/-- No span starts before the place that the scan has reached. -/
theorem upTo_start (h : Tiling p cs spans) (hp : 1 ≤ p.column) :
    ∀ s ∈ spans, p.UpTo s.range.start ∧ 1 ≤ s.range.start.column := by
  induction h with
  | done => simp
  | @blank p c rest spans _ _ ih =>
    obtain ⟨hup, hcolumn⟩ := Position.upTo_advance hp c rest
    intro s hs
    obtain ⟨hs, hscolumn⟩ := ih hcolumn s hs
    exact ⟨hup.trans hs, hscolumn⟩
  | @piece p chars rest spans _ _ _ ih =>
    intro s hs
    rcases List.mem_cons.mp hs with rfl | hs
    · exact ⟨.refl p, hp⟩
    · obtain ⟨hs, hscolumn⟩ := ih (by rw [Position.column_shift]; omega) s hs
      exact ⟨(p.upTo_shift chars.length).trans hs, hscolumn⟩

/-- Every span starts where the span before it ends, or behind that place. -/
theorem stop_upTo_start (h : Tiling p cs spans) (hp : 1 ≤ p.column) :
    spans.Pairwise fun s t => s.range.stop.UpTo t.range.start := by
  induction h with
  | done => exact .nil
  | @blank p c rest spans _ _ ih => exact ih (Position.upTo_advance hp c rest).2
  | @piece p chars rest spans _ _ h ih =>
    have hcolumn : 1 ≤ (p.shift chars.length).column := by rw [Position.column_shift]; omega
    exact .cons (fun s hs => (h.upTo_start hcolumn s hs).1) (ih hcolumn)

end Tiling

-- ---------------------------------------------------------------------------
-- Documents
-- ---------------------------------------------------------------------------

/-- The semantic tokens of a stream are valid and tell all there is to tell. -/
structure Stream.Decodes (s : Stream) : Prop where
  length_eq : s.semanticTokens.length = 5 * s.tokens.length
  nonneg : ∀ n ∈ s.semanticTokens, 0 ≤ n
  /-- Running sums give back the place, length, category and modifiers of each token. -/
  decode_eq : decode s.semanticTokens = s.tokens.map Decoded.ofToken
  /-- The category is found at its index in the legend. -/
  legend : ∀ t ∈ s.tokens, Token.Category.all[t.category.index]? = some t.category
  /-- Bit 0 of the modifiers is the bit of declarations. -/
  declaration_iff : ∀ t ∈ s.tokens,
    (modifiers t).toNat.testBit 0 = true ↔ t.category = .labelDeclaration
  /-- A token on the line of the one before it is at least the length of that one away. -/
  length_le : ∀ (i : Nat) (t : Token) (deltaChar : Int), s.tokens[i]? = some t →
    s.semanticTokens[5 * (i + 1)]? = some 0 →
    s.semanticTokens[5 * (i + 1) + 1]? = some deltaChar → t.text.length ≤ deltaChar
  apart : (decode s.semanticTokens).Pairwise Decoded.Before

namespace Highlighter

namespace Steps

variable {h : Highlighter} {source : String} (steps : Steps h source)

theorem upTo_start : ∀ t ∈ steps.checked,
    Position.start.UpTo t.range.start ∧ 1 ≤ t.range.start.column :=
  fun t ht => steps.tiling.upTo_start (Int.le_refl _) t.span (List.mem_map_of_mem ht)

theorem stop_upTo_start : steps.checked.Pairwise fun t u => t.range.stop.UpTo u.range.start :=
  List.pairwise_map.mp (steps.tiling.stop_upTo_start (Int.le_refl _))

theorem start_upTo_stop {t : Token} (ht : t ∈ steps.checked) :
    t.range.start.UpTo t.range.stop := by
  rw [steps.range_eq t ht]
  exact Position.upTo_shift ..

/-- The end of a token as an editor computes it. -/
theorem before_ofToken {t u : Token} (ht : t ∈ steps.checked)
    (h : t.range.stop.UpTo u.range.start) :
    (Stream.Decoded.ofToken t).Before (.ofToken u) := by
  rw [steps.range_eq t ht] at h
  simp only [Position.UpTo, Range.ofLength, Position.shift] at h
  simp only [Stream.Decoded.Before, Stream.Decoded.ofToken]
  omega

end Steps

/-- The semantic tokens of a highlighted document are five integers for each token, none
    of them negative, and decode to its tokens, which do not overlap. -/
theorem semanticTokens_decode (h : Highlighter) {source : String} {version : Json} {s : Stream}
    (hok : h.highlight source version = .ok s) : s.Decodes := by
  obtain ⟨steps, rfl⟩ := highlight_eq_ok_iff.mp hok
  have htokens := steps.tokens_stream version
  have hdecode : Stream.decode (steps.stream version).semanticTokens =
      steps.checked.map Stream.Decoded.ofToken := by
    rw [Stream.semanticTokens, htokens]
    exact Stream.decodeFrom_semanticFrom steps.length_eq 0 0
  constructor
  case length_eq => exact Stream.length_semanticFrom ..
  case nonneg =>
    rw [Stream.semanticTokens, htokens]
    refine Stream.semanticFrom_nonneg (fun t ht => (steps.upTo_start t ht).1)
      (fun t ht => (steps.upTo_start t ht).2) (fun t ht => ?_) ?_
    · rw [steps.length_eq t ht]
      exact Int.natCast_nonneg _
    · refine steps.stop_upTo_start.imp_of_mem fun {t u} ht _ hstop => ?_
      exact (steps.start_upTo_stop ht).trans hstop
  case decode_eq => rw [hdecode, htokens]
  case legend => exact fun t _ => t.category.getElem?_index
  case declaration_iff => exact fun t _ => Stream.testBit_zero_modifiers t
  case length_le =>
    intro i t deltaChar ht hline hchar
    rw [htokens] at ht
    rw [Stream.semanticTokens, htokens] at hline hchar
    -- There is a next token, because there is a group of integers for it.
    obtain ⟨hi, _⟩ := List.getElem?_eq_some_iff.mp hline
    rw [Stream.length_semanticFrom] at hi
    have hnext : i + 1 < steps.checked.length := by omega
    have hu := List.getElem?_eq_getElem hnext
    obtain ⟨hdelta, hdeltaChar⟩ := Stream.deltas_semanticFrom 0 0 ht hu
    have hsame := Option.some.inj (hdelta.symm.trans hline)
    rw [if_pos hsame, hchar, Option.some.injEq] at hdeltaChar
    obtain ⟨hi', rfl⟩ := List.getElem?_eq_some_iff.mp ht
    have hstop := List.pairwise_iff_getElem.mp steps.stop_upTo_start i (i + 1) hi' hnext
      (Nat.lt_succ_self i)
    have hbefore := steps.before_ofToken (List.getElem_mem hi') hstop
    simp only [Stream.Decoded.Before, Stream.Decoded.ofToken] at hbefore
    omega
  case apart =>
    rw [hdecode, List.pairwise_map]
    exact steps.stop_upTo_start.imp_of_mem fun {t u} ht _ hstop => steps.before_ofToken ht hstop

/-- A declaration and a jump to it on a line, and a last token behind a lone CR. -/
theorem semanticTokens_decode_lines :
    ∃ s, standard.highlight ".a jp a\r\"\u00e9\"" = .ok s ∧ s.Decodes := by
  have hisOk : (standard.highlight ".a jp a\r\"\u00e9\"").isOk = true := by with_unfolding_all decide
  obtain ⟨s, hok⟩ := Except.exists_eq_ok_of_isOk hisOk
  exact ⟨s, hok, semanticTokens_decode standard hok⟩

end Highlighter

end AsmHighlight
