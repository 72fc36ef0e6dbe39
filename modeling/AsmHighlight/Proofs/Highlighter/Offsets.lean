-- SUMMARY: The token at each offset of a highlighted document, and the offsets without one.
import AsmHighlight.Proofs.Highlighter.Steps

/-!
# Offsets of a document

The search at an offset trusts that the tokens are in order, which putting them
together sees to for tokens of any kind (`Stream.findsFirst_emit`). The tokens of a
highlighted document also tile it. So each offset of the document belongs to one
token, which has the document's character there, or to a blank in a gap between
tokens; the search tells which (`tokenAt_found`).
-/

namespace AsmHighlight

-- ---------------------------------------------------------------------------
-- Characters
-- ---------------------------------------------------------------------------

namespace Text

/-- The character of a text at an offset. -/
def charAt? (text : String) (offset : Int) : Option Char :=
  if offset < 0 then none else text.toList[offset.toNat]?

theorem exists_charAt?_iff {text : String} {offset : Int} :
    (∃ c, charAt? text offset = some c) ↔ 0 ≤ offset ∧ offset < text.length := by
  rw [← Option.isSome_iff_exists, charAt?]
  split
  next hneg =>
    simp only [Option.isSome_none, Bool.false_eq_true, false_iff]
    omega
  next hnonneg =>
    rw [isSome_getElem?, String.length_toList]
    omega

/-- A slice has the characters of the text, from its start on. -/
theorem charAt?_slice {text : String} {start stop offset : Int} (hstart : 0 ≤ start)
    (hle : start ≤ offset) (hlt : offset < stop) :
    charAt? (slice text start stop) (offset - start) = charAt? text offset := by
  have hwithin : (offset - start).toNat < (stop - start).toNat := by omega
  have hplace : start.toNat + (offset - start).toNat = offset.toNat := by omega
  rw [charAt?, charAt?, if_neg (by omega), if_neg (by omega), slice, String.toList_ofList,
    List.getElem?_take_of_lt hwithin, List.getElem?_drop, hplace]

end Text

-- ---------------------------------------------------------------------------
-- Gaps
-- ---------------------------------------------------------------------------

/-- The offset lies in a gap: some tokens end before it, and the others start behind it. -/
def Stream.InGap (tokens : List Token) (offset : Int) : Prop :=
  ∃ front back, tokens = front ++ back ∧ (∀ t ∈ front, t.range.stop.offset ≤ offset) ∧
    ∀ t ∈ back, offset < t.range.start.offset

/-- An offset that no token covers lies in a gap of the tokens in order. -/
theorem Stream.inGap_iff {tokens : List Token} (h : tokens.Pairwise Token.UpTo) {offset : Int} :
    InGap tokens offset ↔ ∀ t ∈ tokens, t.range.covers offset = false := by
  simp only [← Bool.not_eq_true, Range.covers_iff]
  constructor
  · rintro ⟨front, back, rfl, hfront, hback⟩ t ht
    rcases List.mem_append.mp ht with ht | ht
    · have hstop := hfront t ht
      omega
    · have hstart := hback t ht
      omega
  · intro huncovered
    induction tokens with
    | nil => exact ⟨[], [], rfl, by simp, by simp⟩
    | cons t rest ih =>
      obtain ⟨hlater, hrest⟩ := List.pairwise_cons.mp h
      obtain ⟨ht, hothers⟩ := List.forall_mem_cons.mp huncovered
      by_cases hstart : offset < t.range.start.offset
      · refine ⟨[], t :: rest, rfl, by simp, List.forall_mem_cons.mpr ⟨hstart, fun u hu => ?_⟩⟩
        exact Int.lt_of_lt_of_le hstart (hlater u hu).start_le
      · obtain ⟨front, back, rfl, hfront, hback⟩ := ih hrest hothers
        refine ⟨t :: front, back, rfl, List.forall_mem_cons.mpr ⟨?_, hfront⟩, hback⟩
        omega

/-- Tokens that follow each other cover an offset at most once. -/
theorem Stream.countP_covers_le_one {tokens : List Token}
    (h : tokens.Pairwise fun t u => t.range.stop.offset ≤ u.range.start.offset) (offset : Int) :
    tokens.countP (fun t => t.range.covers offset) ≤ 1 := by
  induction tokens with
  | nil => simp
  | cons t rest ih =>
    obtain ⟨hlater, hrest⟩ := List.pairwise_cons.mp h
    by_cases hcovers : t.range.covers offset = true
    · have hnone : rest.countP (fun u => u.range.covers offset) = 0 := by
        rw [List.countP_eq_zero]
        intro u hu
        have hle := hlater u hu
        rw [Range.covers_iff] at hcovers ⊢
        omega
      simp [hcovers, hnone]
    · simp only [List.countP_cons, hcovers]
      exact ih hrest

theorem Stream.covers_of_find? {tokens : List Token} {offset : Int} {t : Token}
    (h : (tokens.find? fun t => t.range.covers offset) = some t) :
    t ∈ tokens ∧ t.range.covers offset = true := by
  obtain ⟨hcovers, front, back, htokens, _⟩ := List.find?_eq_some_iff_append.mp h
  exact ⟨by simp [htokens], hcovers⟩

namespace Highlighter

/-- What is found at an offset of a highlighted document. -/
structure FoundAt (source : String) (s : Stream) (offset : Int) : Prop where
  /-- Nothing is found outside of the document and at the blanks between tokens only. -/
  eq_none_iff : s.tokenAt offset = none ↔ (offset < 0 ∨ source.length ≤ offset) ∨
    ((∃ c, Text.charAt? source offset = some c ∧ Text.isBlank c = true) ∧
      Stream.InGap s.tokens offset)
  /-- What is found is the token with the character of the document. -/
  eq_some_iff : ∀ t, s.tokenAt offset = some t ↔ t ∈ s.tokens ∧
    ∃ c, Text.charAt? t.text (offset - t.range.start.offset) = some c ∧
      Text.charAt? source offset = some c
  /-- It stands in the stream once, and no other token covers the offset. -/
  once : s.tokenAt offset ≠ none → s.tokens.countP (fun t => t.range.covers offset) = 1

namespace Steps

variable {h : Highlighter} {source : String} (steps : Steps h source) {offset : Int}

/-- A token covers the places of its characters in the document. -/
theorem covers_iff_charAt? {t : Token} (ht : t ∈ steps.checked) :
    t.range.covers offset = true ↔
      ∃ c, Text.charAt? t.text (offset - t.range.start.offset) = some c ∧
        Text.charAt? source offset = some c := by
  have hmem : t.span ∈ steps.checked.map Token.span := List.mem_map_of_mem ht
  have hlength := steps.length_eq t ht
  obtain ⟨hstart, _, hstop⟩ := steps.tiles.inside t.span hmem
  have htext : t.text = Text.slice source t.range.start.offset t.range.stop.offset :=
    steps.tiles.text_eq t.span hmem
  have hstart : 0 ≤ t.range.start.offset := hstart
  have hstop : t.range.stop.offset ≤ source.length := hstop
  simp only [Range.length] at hlength
  rw [Range.covers_iff]
  constructor
  · rintro ⟨hle, hlt⟩
    obtain ⟨c, hc⟩ := Text.exists_charAt?_iff.mpr
      (⟨by omega, by omega⟩ : 0 ≤ offset ∧ offset < source.length)
    refine ⟨c, ?_, hc⟩
    rw [htext, Text.charAt?_slice hstart hle hlt, hc]
  · rintro ⟨c, hc, _⟩
    have hwithin := Text.exists_charAt?_iff.mp ⟨c, hc⟩
    omega

theorem tokenAt_stream (version : Json) :
    (steps.stream version).tokenAt offset =
      steps.checked.find? fun t => t.range.covers offset := by
  rw [Stream.tokenAt, steps.tokens_stream]
  exact Stream.findAt_eq_find? steps.tiles.pairwise_upTo offset

/-- An offset that no token covers is outside of the document or that of a blank. -/
theorem outside_or_blank_of_uncovered
    (huncovered : ∀ t ∈ steps.checked, t.range.covers offset = false) :
    (offset < 0 ∨ source.length ≤ offset) ∨
      ∃ c, Text.charAt? source offset = some c ∧ Text.isBlank c = true := by
  by_cases hinside : 0 ≤ offset ∧ offset < source.length
  · obtain ⟨c, hc⟩ := Text.exists_charAt?_iff.mpr hinside
    refine .inr ⟨c, hc, ?_⟩
    rw [Text.charAt?, if_neg (by omega)] at hc
    refine steps.tiles.blank_of_uncovered offset.toNat c hc ?_
    rw [List.forall_mem_map, Int.toNat_of_nonneg hinside.1]
    exact huncovered
  · exact .inl (by omega)

theorem uncovered_of_outside (houtside : offset < 0 ∨ source.length ≤ offset) :
    ∀ t ∈ steps.checked, t.range.covers offset = false := by
  intro t ht
  rw [← Bool.not_eq_true, steps.covers_iff_charAt? ht]
  rintro ⟨c, _, hc⟩
  have hinside := Text.exists_charAt?_iff.mp ⟨c, hc⟩
  omega

theorem foundAt (version : Json) (offset : Int) :
    FoundAt source (steps.stream version) offset := by
  have hnone : (steps.stream version).tokenAt offset = none ↔
      ∀ t ∈ steps.checked, t.range.covers offset = false := by
    simp [steps.tokenAt_stream, List.find?_eq_none]
  constructor
  case eq_none_iff =>
    rw [hnone, steps.tokens_stream, Stream.inGap_iff steps.tiles.pairwise_upTo]
    constructor
    · intro huncovered
      exact (steps.outside_or_blank_of_uncovered huncovered).imp_right fun hblank =>
        ⟨hblank, huncovered⟩
    · rintro (houtside | ⟨_, huncovered⟩)
      · exact steps.uncovered_of_outside houtside
      · exact huncovered
  case eq_some_iff =>
    intro t
    rw [steps.tokenAt_stream, steps.tokens_stream]
    constructor
    · intro hfound
      obtain ⟨ht, hcovers⟩ := Stream.covers_of_find? hfound
      exact ⟨ht, (steps.covers_iff_charAt? ht).mp hcovers⟩
    · rintro ⟨ht, hchar⟩
      have hcovers := (steps.covers_iff_charAt? ht).mpr hchar
      cases hfound : steps.checked.find? fun t => t.range.covers offset with
      | none => exact absurd hcovers (List.find?_eq_none.mp hfound t ht)
      | some u =>
        obtain ⟨hu, hcovers'⟩ := Stream.covers_of_find? hfound
        rw [steps.eq_of_covers hu ht hcovers' hcovers]
  case once =>
    intro hfound
    rw [steps.tokens_stream]
    have hone := Stream.countP_covers_le_one (List.pairwise_map.mp steps.tiles.ordered) offset
    have hsome : steps.checked.countP (fun t => t.range.covers offset) ≠ 0 := by
      rw [ne_eq, List.countP_eq_zero]
      simpa [hnone] using hfound
    exact Nat.le_antisymm hone (Nat.pos_of_ne_zero hsome)

end Steps

/-- The search at an offset finds the first token in order that covers it, for tokens of any
    kind; in a highlighted document that is the one token with the character there, and
    only blanks between tokens have none. -/
theorem tokenAt_found :
    (∀ (cap : Option Int) (version : Json) (tokens : List Token) (diagnostics : List Diagnostic)
      (labels : Label.Table) (offset : Int),
      Stream.FindsFirst tokens (Stream.emit cap version tokens diagnostics labels) offset) ∧
    ∀ (h : Highlighter) (source : String) (version : Json) (s : Stream),
      h.highlight source version = .ok s → ∀ offset, FoundAt source s offset := by
  refine ⟨Stream.findsFirst_emit, fun h source version s hok offset => ?_⟩
  obtain ⟨steps, rfl⟩ := highlight_eq_ok_iff.mp hok
  exact steps.foundAt version offset

/-- A blank within a string belongs to the string, those around it to no token. -/
theorem tokenAt_found_blank :
    ∃ s, standard.highlight " \"; \" " = .ok s ∧
      [-1, 0, 1, 3, 5, 6].map (fun offset => (s.tokenAt offset).map Token.text) =
        [none, none, some "\"; \"", some "\"; \"", none, none] ∧
      ∀ offset, FoundAt " \"; \" " s offset := by
  have hfound : (standard.highlight " \"; \" ").toOption.map (fun s =>
      [-1, 0, 1, 3, 5, 6].map fun offset => (s.tokenAt offset).map Token.text) =
        some [none, none, some "\"; \"", some "\"; \"", none, none] := by
    with_unfolding_all decide
  cases hok : standard.highlight " \"; \" " with
  | error fault => rw [hok] at hfound; cases hfound
  | ok s =>
    rw [hok] at hfound
    exact ⟨s, rfl, Option.some.inj hfound, tokenAt_found.2 standard _ _ s hok⟩

end Highlighter

end AsmHighlight
