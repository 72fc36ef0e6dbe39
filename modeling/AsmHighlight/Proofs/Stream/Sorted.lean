-- SUMMARY: The tokens of a stream in order of place: what is found at an offset, and when an overlap is reported.
import AsmHighlight.Stream.Basic

/-!
# Tokens in order

Putting tokens into order keeps all of them (`sortTokens_perm`,
`pairwise_sortTokens`). Two things are then done by the order alone. The search
at an offset ends at a token that starts beyond it, since every token behind
that one starts beyond it too; so it finds what a search of the whole list finds
(`findAt_eq_find?`). And only neighbours are compared for overlaps, since a token
that reaches into one far behind it reaches into its neighbour as well; so a
list without overlapping neighbours has no overlap at all
(`pairwise_of_overlaps_eq_nil`).
-/

namespace AsmHighlight

-- ---------------------------------------------------------------------------
-- Shared characters
-- ---------------------------------------------------------------------------

namespace Range

variable {r s : Range}

theorem covers_iff {offset : Int} :
    r.covers offset = true ↔ r.start.offset ≤ offset ∧ offset < r.stop.offset := by
  simp [covers]

/-- Some character belongs to both ranges. -/
def Meets (r s : Range) : Prop :=
  ∃ offset, r.covers offset = true ∧ s.covers offset = true

theorem Meets.symm (h : r.Meets s) : s.Meets r := by
  obtain ⟨offset, hr, hs⟩ := h
  exact ⟨offset, hs, hr⟩

/-- Ranges that hold a character each share one exactly when neither ends before the
    other starts. -/
theorem meets_iff (hr : r.start.offset < r.stop.offset) (hs : s.start.offset < s.stop.offset) :
    r.Meets s ↔ r.start.offset < s.stop.offset ∧ s.start.offset < r.stop.offset := by
  simp only [Meets, covers_iff]
  constructor
  · rintro ⟨offset, hr, hs⟩
    omega
  · rintro ⟨hrs, hsr⟩
    -- The range that starts later starts in the other one.
    rcases Int.le_total r.start.offset s.start.offset with hle | hle
    · exact ⟨s.start.offset, ⟨hle, hsr⟩, Int.le_refl _, hs⟩
    · exact ⟨r.start.offset, ⟨Int.le_refl _, hr⟩, hle, hrs⟩

end Range

-- ---------------------------------------------------------------------------
-- The order
-- ---------------------------------------------------------------------------

/-- The token starts before the other, or starts with it and ends no later. -/
def Token.UpTo (t u : Token) : Prop :=
  t.range.start.offset < u.range.start.offset ∨
    (t.range.start.offset = u.range.start.offset ∧ t.range.stop.offset ≤ u.range.stop.offset)

theorem Token.UpTo.start_le {t u : Token} (h : t.UpTo u) :
    t.range.start.offset ≤ u.range.start.offset := by
  rcases h with hlt | ⟨heq, _⟩
  · exact Int.le_of_lt hlt
  · exact Int.le_of_eq heq

namespace Stream

theorem tokenLe_iff {t u : Token} : tokenLe t u = true ↔ t.UpTo u := by
  simp [tokenLe, Token.UpTo]

theorem tokenLe_total (t u : Token) : (tokenLe t u || tokenLe u t) = true := by
  rw [Bool.or_eq_true, tokenLe_iff, tokenLe_iff]
  simp only [Token.UpTo]
  omega

theorem tokenLe_trans (t u v : Token) (h : tokenLe t u = true) (h' : tokenLe u v = true) :
    tokenLe t v = true := by
  rw [tokenLe_iff] at h h' ⊢
  simp only [Token.UpTo] at h h' ⊢
  omega

theorem sortTokens_perm (tokens : List Token) : (sortTokens tokens).Perm tokens :=
  List.mergeSort_perm tokens tokenLe

theorem pairwise_sortTokens (tokens : List Token) : (sortTokens tokens).Pairwise Token.UpTo :=
  (List.pairwise_mergeSort tokenLe_trans tokenLe_total tokens).imp tokenLe_iff.mp

-- ---------------------------------------------------------------------------
-- The token at an offset
-- ---------------------------------------------------------------------------

/-- In a list in order, no token behind the end of the search covers the offset. -/
theorem findAt_eq_find? {tokens : List Token} (h : tokens.Pairwise Token.UpTo) (offset : Int) :
    findAt offset tokens = tokens.find? fun t => t.range.covers offset := by
  induction tokens with
  | nil => rfl
  | cons t rest ih =>
    obtain ⟨hlater, hrest⟩ := List.pairwise_cons.mp h
    unfold findAt
    split
    next hcovers => simp only [List.find?_cons, hcovers]
    next hcovers =>
      simp only [List.find?_cons, hcovers]
      split
      next hbeyond =>
        symm
        rw [List.find?_eq_none]
        intro u hu
        have hle := (hlater u hu).start_le
        rw [Range.covers_iff]
        omega
      next => exact ih hrest

/-- What is found at an offset of a stream that was put together of the tokens. -/
structure FindsFirst (tokens : List Token) (s : Stream) (offset : Int) : Prop where
  perm : s.tokens.Perm tokens
  ordered : s.tokens.Pairwise Token.UpTo
  /-- It is the first token in order that covers the offset. -/
  eq_some_iff : ∀ t, s.tokenAt offset = some t ↔ ∃ front back, s.tokens = front ++ t :: back ∧
    t.range.covers offset = true ∧ ∀ u ∈ front, u.range.covers offset = false
  /-- There is none only if no token covers the offset. -/
  eq_none_iff : s.tokenAt offset = none ↔ ∀ t ∈ tokens, t.range.covers offset = false

theorem findsFirst_emit (cap : Option Int) (version : Json) (tokens : List Token)
    (diagnostics : List Diagnostic) (labels : Label.Table) (offset : Int) :
    FindsFirst tokens (emit cap version tokens diagnostics labels) offset := by
  have hfind : (emit cap version tokens diagnostics labels).tokenAt offset =
      (sortTokens tokens).find? fun t => t.range.covers offset :=
    findAt_eq_find? (pairwise_sortTokens tokens) offset
  constructor
  case perm => exact sortTokens_perm tokens
  case ordered => exact pairwise_sortTokens tokens
  case eq_some_iff =>
    intro t
    rw [hfind, List.find?_eq_some_iff_append]
    constructor
    · rintro ⟨hcovers, front, back, htokens, hfront⟩
      exact ⟨front, back, htokens, hcovers, by simpa using hfront⟩
    · rintro ⟨front, back, htokens, hcovers, hfront⟩
      exact ⟨hcovers, front, back, htokens, by simpa using hfront⟩
  case eq_none_iff =>
    rw [hfind, List.find?_eq_none]
    simp only [(sortTokens_perm tokens).mem_iff, Bool.not_eq_true]

-- ---------------------------------------------------------------------------
-- Overlaps
-- ---------------------------------------------------------------------------

/-- Tokens that follow each other share no character. -/
theorem overlaps_eq_nil {tokens : List Token}
    (h : tokens.Pairwise fun t u => t.range.stop.offset ≤ u.range.start.offset) :
    overlaps tokens = [] := by
  fun_induction overlaps tokens with
  | case1 | case2 => rfl
  | case3 t u rest hshare ih =>
    have hle := (List.pairwise_cons.mp h).1 u (List.mem_cons_self ..)
    simp only [Range.overlaps, Bool.and_eq_true, decide_eq_true_eq] at hshare
    omega
  | case4 t u rest _ ih => exact ih (List.pairwise_cons.mp h).2

/-- Tokens in order of which no two neighbours overlap follow each other. -/
theorem pairwise_of_overlaps_eq_nil {tokens : List Token}
    (hne : ∀ t ∈ tokens, t.range.start.offset < t.range.stop.offset)
    (hordered : tokens.Pairwise Token.UpTo) (hnil : overlaps tokens = []) :
    tokens.Pairwise fun t u => t.range.stop.offset ≤ u.range.start.offset := by
  fun_induction overlaps tokens with
  | case1 => exact .nil
  | case2 t => exact List.pairwise_singleton _ t
  | case3 => cases hnil
  | case4 t u rest hshare ih =>
    obtain ⟨hlater, hrest⟩ := List.pairwise_cons.mp hordered
    have hu : u.range.start.offset < u.range.stop.offset := hne u (by simp)
    have htu : t.range.start.offset ≤ u.range.start.offset :=
      (hlater u (List.mem_cons_self ..)).start_le
    -- The neighbour starts behind the first token, and all others no earlier than it.
    have hstop : t.range.stop.offset ≤ u.range.start.offset := by
      simp only [Range.overlaps, Bool.and_eq_true, decide_eq_true_eq] at hshare
      omega
    refine .cons (fun v hv => ?_) (ih (fun v hv => hne v (List.mem_cons_of_mem t hv)) hrest hnil)
    rcases List.mem_cons.mp hv with rfl | hv
    · exact hstop
    · exact Int.le_trans hstop ((List.pairwise_cons.mp hrest).1 v hv).start_le

/-- Two places of the list hold tokens that share a character. -/
def HoldsOverlap (tokens : List Token) : Prop :=
  ∃ (i j : Nat) (t u : Token), i ≠ j ∧ tokens[i]? = some t ∧ tokens[j]? = some u ∧
    t.range.Meets u.range

theorem not_holdsOverlap_iff {tokens : List Token} :
    ¬ HoldsOverlap tokens ↔ tokens.Pairwise fun t u => ¬ t.range.Meets u.range := by
  rw [List.pairwise_iff_getElem]
  constructor
  · intro hnone i j hi hj hij hmeets
    exact hnone ⟨i, j, tokens[i], tokens[j], Nat.ne_of_lt hij, List.getElem?_eq_getElem hi,
      List.getElem?_eq_getElem hj, hmeets⟩
  · rintro hapart ⟨i, j, t, u, hij, ht, hu, hmeets⟩
    obtain ⟨hi, rfl⟩ := List.getElem?_eq_some_iff.mp ht
    obtain ⟨hj, rfl⟩ := List.getElem?_eq_some_iff.mp hu
    rcases Nat.lt_or_gt_of_ne hij with hij | hij
    · exact hapart i j hi hj hij hmeets
    · exact hapart j i hj hi hij hmeets.symm

/-- Comparing the neighbours in order finds an overlap exactly when there is one. -/
theorem overlaps_sortTokens_eq_nil_iff {tokens : List Token}
    (hne : ∀ t ∈ tokens, t.range.start.offset < t.range.stop.offset) :
    overlaps (sortTokens tokens) = [] ↔ ¬ HoldsOverlap tokens := by
  have hperm := sortTokens_perm tokens
  have hordered := pairwise_sortTokens tokens
  have hne' : ∀ t ∈ sortTokens tokens, t.range.start.offset < t.range.stop.offset :=
    fun t ht => hne t (hperm.mem_iff.mp ht)
  have hsymm {t u : Token} (h : ¬ t.range.Meets u.range) : ¬ u.range.Meets t.range :=
    fun hmeets => h hmeets.symm
  rw [not_holdsOverlap_iff, ← hperm.pairwise_iff hsymm]
  constructor
  · intro hnil
    refine (pairwise_of_overlaps_eq_nil hne' hordered hnil).imp_of_mem fun ht hu hle hmeets => ?_
    have hshare := (Range.meets_iff (hne' _ ht) (hne' _ hu)).mp hmeets
    omega
  · intro hapart
    refine overlaps_eq_nil ((hapart.and hordered).imp_of_mem fun {t u} ht hu h => ?_)
    obtain ⟨hapart, hle⟩ := h
    rw [Range.meets_iff (hne' _ ht) (hne' _ hu)] at hapart
    have hle := hle.start_le
    have hu := hne' u hu
    omega

/-- The record is a warning that two tokens overlap. -/
def WarnsOfOverlap (r : Log.Record) : Prop :=
  r.level = .warning ∧
    ∃ t u : Token, r.message = s!"Overlapping tokens {t.display} and {u.display}"

/-- Warnings are logged only on neighbours that overlap. -/
theorem mem_emitLog_of_level {cap : Option Int} {s : Stream} {r : Log.Record}
    (hr : r ∈ emitLog cap s) (hlevel : r.level = .warning) :
    ∃ t u, (t, u) ∈ overlaps s.tokens ∧ r = .overlapping t u := by
  have hdropped : r ∉ droppedRecord cap s := by
    unfold droppedRecord
    split
    next limit =>
      split
      next => exact List.not_mem_nil
      next =>
        rw [List.mem_singleton]
        rintro rfl
        cases hlevel
    next => exact List.not_mem_nil
  have hemitting : r ∉ emittingRecord s := by
    unfold emittingRecord
    split
    next =>
      rw [List.mem_singleton]
      rintro rfl
      cases hlevel
    next => exact List.not_mem_nil
  simp only [emitLog, List.mem_append, List.mem_map] at hr
  rcases hr with (⟨⟨t, u⟩, htu, rfl⟩ | hr) | hr
  · exact ⟨t, u, htu, rfl⟩
  · exact absurd hr hdropped
  · exact absurd hr hemitting

theorem overlapping_mem_emitLog_iff {cap : Option Int} {s : Stream} {t u : Token} :
    .overlapping t u ∈ emitLog cap s ↔ (t, u) ∈ overlaps s.tokens := by
  constructor
  · intro hr
    obtain ⟨_, _, htu, heq⟩ := mem_emitLog_of_level hr rfl
    cases heq
    exact htu
  · intro htu
    exact List.mem_append_left _ (List.mem_append_left _ (List.mem_map_of_mem htu))

theorem warned_iff {cap : Option Int} {s : Stream} :
    (∃ r ∈ emitLog cap s, WarnsOfOverlap r) ↔ overlaps s.tokens ≠ [] := by
  constructor
  · rintro ⟨r, hr, hlevel, _⟩
    obtain ⟨t, u, htu, _⟩ := mem_emitLog_of_level hr hlevel
    exact List.ne_nil_of_mem htu
  · intro hne
    obtain ⟨⟨t, u⟩, htu⟩ := List.exists_mem_of_ne_nil _ hne
    exact ⟨.overlapping t u, overlapping_mem_emitLog_iff.mpr htu, rfl, t, u, rfl⟩

/-- Tokens that cover something are put into order, and an overlap is warned of exactly when
    there is one, however far apart in order its tokens stand. -/
theorem overlap_warned_iff (cap : Option Int) (version : Json) {tokens : List Token}
    (hne : ∀ t ∈ tokens, t.range.start.offset < t.range.stop.offset)
    (diagnostics : List Diagnostic) (labels : Label.Table) :
    (emit cap version tokens diagnostics labels).tokens.Perm tokens ∧
    (emit cap version tokens diagnostics labels).tokens.Pairwise Token.UpTo ∧
    ((∃ r ∈ emitLog cap (emit cap version tokens diagnostics labels), WarnsOfOverlap r) ↔
      HoldsOverlap tokens) ∧
    ((∀ r ∈ emitLog cap (emit cap version tokens diagnostics labels), r.level ≠ .warning) →
      tokens.Pairwise fun t u => ¬ t.range.Meets u.range) := by
  have hnil : overlaps (emit cap version tokens diagnostics labels).tokens = [] ↔
      ¬ HoldsOverlap tokens := overlaps_sortTokens_eq_nil_iff hne
  refine ⟨sortTokens_perm tokens, pairwise_sortTokens tokens, ?_, fun hquiet => ?_⟩
  · rw [warned_iff, ne_eq, hnil, Classical.not_not]
  · rw [← not_holdsOverlap_iff, ← hnil]
    refine Classical.byContradiction fun hsome => ?_
    obtain ⟨r, hr, hlevel, _⟩ := warned_iff.mpr hsome
    exact hquiet r hr hlevel

/-- A comment, and within it two words that do not touch each other. -/
def enclosing : List Token :=
  [⟨.identifier, "c", .ofLength ⟨1, 6, 5⟩ 1, []⟩, ⟨.identifier, "a", .ofLength ⟨1, 2, 1⟩ 1, []⟩,
   ⟨.comment, ";a  ;c", .ofLength ⟨1, 1, 0⟩ 6, []⟩]

/-- The first token in the list reaches into the last, which comes first in order. -/
theorem overlap_warned_iff_enclosing :
    (∀ t ∈ enclosing, t.range.start.offset < t.range.stop.offset) ∧ HoldsOverlap enclosing ∧
      ∃ r ∈ emitLog none (emit none .null enclosing [] []), WarnsOfOverlap r := by
  have hne : ∀ t ∈ enclosing, t.range.start.offset < t.range.stop.offset := by decide
  have hholds : HoldsOverlap enclosing :=
    ⟨0, 2, _, _, by decide, rfl, rfl, 5, by decide, by decide⟩
  obtain ⟨_, _, hwarned, _⟩ := overlap_warned_iff none .null hne [] []
  exact ⟨hne, hholds, hwarned.mpr hholds⟩

end Stream

end AsmHighlight
