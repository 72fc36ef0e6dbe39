-- SUMMARY: The diagnostics of a document have different sort keys, and a cap keeps the first of them.
import AsmHighlight.Proofs.Diagnostic.Key
import AsmHighlight.Proofs.Highlighter.Directives
import AsmHighlight.Proofs.Highlighter.References
import AsmHighlight.Proofs.Highlighter.Relocated

/-!
# Order and cap of the diagnostics

No two diagnostics of a document have the same sort key: the steps have codes of
their own, and no step remarks twice on a range with one code
(`Steps.pairwise_diagnostics`). Several directives on a line may share operands,
but never the place where a remark of one code starts. So the order of
presentation does not depend on the order of the steps.

Nothing but the last step looks at the cap. The same steps therefore give the
stream for any cap (`Steps.withCap`), which shows the first diagnostics of the
stream without a cap and counts the rest.
-/

namespace AsmHighlight.Highlighter

def withCap (h : Highlighter) (cap : Option Nat) : Highlighter :=
  { h with policy := { h.policy with cap := cap } }

variable {h : Highlighter} {source : String}

namespace Steps

/-- The cap makes no difference to the steps. -/
def withCap (steps : Steps h source) (cap : Option Nat) : Steps (h.withCap cap) source where
  tokens := steps.tokens
  labels := steps.labels
  duplicates := steps.duplicates
  checked := steps.checked
  found := steps.found
  classified_eq := steps.classified_eq
  collect_eq := steps.collect_eq
  check_eq := steps.check_eq

-- ---------------------------------------------------------------------------
-- Different diagnostics
-- ---------------------------------------------------------------------------

variable (steps : Steps h source)

theorem pairwise_malformed :
    (steps.tokens.filterMap Token.malformed?).Pairwise fun d e => d.range ≠ e.range := by
  refine (starts_increasing steps.pass.map_span).filterMap _ ?_
  intro t u hlt d hd e he hrange
  have htoken {t : Token} {d : Diagnostic} (hd : t.malformed? = some d) : d.range = t.range := by
    unfold Token.malformed? at hd
    split at hd <;> cases hd
    rfl
  rw [htoken hd, htoken he] at hrange
  rw [hrange] at hlt
  exact Int.lt_irrefl _ hlt

theorem pairwise_duplicates : steps.duplicates.Pairwise fun d e => d.range ≠ e.range := by
  apply (Label.enumerates_duplicates steps.collect_eq).pairwise
  rintro i j _ _ hij ⟨label, first, hlabel, _, rfl⟩ ⟨label', first', hlabel', _, rfl⟩ hrange
  obtain ⟨t, ht, _, htoken⟩ := Label.exists_of_declaredAt? hlabel
  obtain ⟨u, hu, _, htoken'⟩ := Label.exists_of_declaredAt? hlabel'
  have hrange : label.range = label'.range := hrange
  rw [← htoken, ← htoken', eq_comm, steps.range_eq_iff ht hu] at hrange
  exact Nat.ne_of_gt hij hrange

theorem pairwise_unresolved :
    (h.resolution steps.labels steps.tokens).2.Pairwise fun d e => d.range ≠ e.range := by
  apply (Label.enumerates_unresolved none steps.tokens).pairwise
  rintro i j _ _ hij ⟨t, ht, _, _, rfl⟩ ⟨u, hu, _, _, rfl⟩ hrange
  exact Nat.ne_of_gt hij ((steps.range_eq_iff ht hu).mp hrange.symm)

theorem pairwise_found :
    steps.found.Pairwise fun d e => d.code = e.code → d.range ≠ e.range := by
  have hnodup := (Directive.exactly_check steps.inOrder_resolution steps.check_eq).nodup
  refine (List.pairwise_map.mp hnodup).imp fun {d e} hne hcode hrange => ?_
  exact hne (Prod.ext hcode hrange)

/-- No two diagnostics of a code are on the same range. -/
theorem pairwise_diagnostics :
    steps.diagnostics.Pairwise fun d e => d.code = e.code → d.range ≠ e.range := by
  have hweaken {d e : Diagnostic} (hne : d.range ≠ e.range) (_ : d.code = e.code) :
      d.range ≠ e.range := hne
  have hremark {d e : Diagnostic} (he : e ∈ steps.found) (hcode : d.code = e.code) :
      Directive.isRemarkCode d.code = true := hcode ▸ steps.isRemarkCode_of_mem he
  -- Diagnostics of different steps have different codes.
  refine List.pairwise_append.mpr ⟨List.pairwise_append.mpr ⟨List.pairwise_append.mpr
    ⟨steps.pairwise_malformed.imp hweaken, steps.pairwise_duplicates.imp hweaken, ?_⟩,
    steps.pairwise_unresolved.imp hweaken, ?_⟩, steps.pairwise_found, ?_⟩
  · intro d hd e he hcode
    rw [(steps.malformed_of_mem hd).1, (steps.duplicate_of_mem he).1] at hcode
    cases hcode
  · intro d hd e he hcode
    rw [(steps.unresolved_of_mem he).1] at hcode
    rcases List.mem_append.mp hd with hd | hd
    · rw [(steps.malformed_of_mem hd).1] at hcode
      cases hcode
    · rw [(steps.duplicate_of_mem hd).1] at hcode
      cases hcode
  · intro d hd e he hcode
    have hcode := hremark he hcode
    rcases List.mem_append.mp hd with hd | hd
    · rcases List.mem_append.mp hd with hd | hd
      · rw [(steps.malformed_of_mem hd).1] at hcode
        cases hcode
      · rw [(steps.duplicate_of_mem hd).1] at hcode
        cases hcode
    · rw [(steps.unresolved_of_mem hd).1] at hcode
      cases hcode

/-- No two diagnostics have the same sort key. -/
theorem nodup_sortKey : (steps.diagnostics.map Diagnostic.sortKey).Nodup := by
  refine List.pairwise_map.mpr (steps.pairwise_diagnostics.imp_of_mem ?_)
  intro d e hd he hne hkey
  obtain ⟨hstart, hstop, hcode, _⟩ := Diagnostic.sortKey_eq_iff.mp hkey
  refine hne hcode ?_
  exact (steps.spans_of_mem hd).range_eq (Lexeme.precedes_scan _ source) (steps.spans_of_mem he)
    hstart hstop

end Steps

-- ---------------------------------------------------------------------------
-- Capped streams
-- ---------------------------------------------------------------------------

/-- The stream is the full one with the first `n` of its diagnostics, out of `reported`. -/
structure CappedAt (n reported : Nat) (full s : Stream) : Prop where
  version : s.version = full.version
  tokens : s.tokens = full.tokens
  labels : s.labels = full.labels
  diagnostics : s.diagnostics = full.diagnostics.take n
  dropped : s.diagnostics.length + s.dropped = reported

theorem cappedAt_emit (n : Nat) (version : Json) (tokens : List Token) (ds : List Diagnostic)
    (labels : Label.Table) :
    CappedAt n ds.length (Stream.emit none version tokens ds labels)
      (Stream.emit (some n) version tokens ds labels) := by
  have hlength : (Diagnostic.sort ds).length = ds.length := (Diagnostic.sort_perm ds).length_eq
  have hdiagnostics : (Stream.emit (some n) version tokens ds labels).diagnostics =
      (Diagnostic.sort ds).take n := by
    simp only [Stream.emit, Option.elim_some, Stream.takeCapped]
    split
    next => rw [if_neg (by omega), Int.toNat_natCast]
    next hle => rw [List.take_of_length_le (by omega)]
  refine ⟨rfl, rfl, rfl, hdiagnostics, ?_⟩
  rw [hdiagnostics, List.length_take, hlength]
  simp only [Stream.emit, Option.elim_some, Stream.beyondCap, hlength]
  split <;> omega

/-- What the stages report has different sort keys. So its order is of no matter to the
    stream, the stream without a cap presents it in strictly increasing order, and any
    cap keeps the first of it and counts the rest. -/
theorem diagnostics_ordered (h : Highlighter) {source : String} {version : Json} {s : Stream}
    (hok : h.highlight source version = .ok s) :
    ∃ steps : Steps h source, s = steps.stream version ∧
      (steps.diagnostics.map Diagnostic.sortKey).Nodup ∧
      (∀ reported : List Diagnostic, reported.Perm steps.diagnostics →
        Stream.emit h.cap version steps.checked reported steps.labels = s) ∧
      ∃ full, (h.withCap none).highlight source version = .ok full ∧
        full.diagnostics.Perm steps.diagnostics ∧
        (full.diagnostics.map Diagnostic.sortKey).Pairwise (· < ·) ∧
        ∀ n : Nat, ∃ capped, (h.withCap (some n)).highlight source version = .ok capped ∧
          CappedAt n steps.diagnostics.length full capped := by
  obtain ⟨steps, rfl⟩ := highlight_eq_ok_iff.mp hok
  have hkeys := steps.nodup_sortKey
  refine ⟨steps, rfl, hkeys, fun reported hperm => ?_, (steps.withCap none).stream version,
    highlight_eq_ok_iff.mpr ⟨_, rfl⟩, ?_, ?_, fun n => ?_⟩
  · rw [Steps.stream, Stream.emit, Stream.emit, Diagnostic.sort_eq_of_perm hkeys hperm]
  · rw [Steps.diagnostics_stream _ rfl]
    exact Diagnostic.sort_perm _
  · rw [Steps.diagnostics_stream _ rfl]
    exact Diagnostic.sortKey_lt_sort hkeys
  · exact ⟨(steps.withCap (some n)).stream version, highlight_eq_ok_iff.mpr ⟨_, rfl⟩,
      cappedAt_emit n version steps.checked steps.diagnostics steps.labels⟩

/-- All that the steps have to say on a document, in the order of the steps. -/
def reported (h : Highlighter) (source : String) : Except Token.Fault (List Diagnostic) := do
  let tokens ← (h.classified source).mapError .overlong
  let collected ← Label.collect tokens
  let resolved := h.resolution collected.1 tokens
  let checked ← Directive.check h.grammar resolved.1
  return tokens.filterMap Token.malformed? ++ collected.2 ++ resolved.2 ++ checked.2

theorem Steps.reported_eq (steps : Steps h source) : h.reported source = .ok steps.diagnostics := by
  rw [reported, steps.classified_eq]
  simp only [Except.mapError_ok, bind, Except.bind, steps.collect_eq, steps.check_eq]
  rfl

/-- A word that is no label declaration is also an operand too much. Both remarks on it are
    presented in the order of their codes, which is not the order of the steps, and a cap of one
    keeps the one that the last step has found. -/
theorem diagnostics_ordered_on_one_word :
    ∃ s, (standard.withCap (some 1)).highlight "#d8 1 .x" = .ok s ∧
      s.diagnostics.map Diagnostic.code = [.operandSurplus] ∧ s.dropped = 1 ∧
      ∃ full, (standard.withCap none).highlight "#d8 1 .x" = .ok full ∧
        full.diagnostics.map (fun d => (d.code, d.range.start.offset)) =
          [(.operandSurplus, 6), (.malformedLexeme, 6)] ∧
        (full.diagnostics.map Diagnostic.sortKey).Pairwise (· < ·) ∧
        ∀ n : Nat, ∃ capped, (standard.withCap (some n)).highlight "#d8 1 .x" = .ok capped ∧
          CappedAt n 2 full capped := by
  have hisOk : ((standard.withCap (some 1)).highlight "#d8 1 .x").isOk = true := by
    with_unfolding_all decide
  have hreported : ((standard.withCap (some 1)).reported "#d8 1 .x").toOption.map
      (fun ds => (ds.map fun d => (d.code, d.range.start.offset),
        decide (ds.reverse.Pairwise fun d e => d.sortLe e = true))) =
      some ([(.malformedLexeme, 6), (.operandSurplus, 6)], true) := by
    with_unfolding_all decide
  obtain ⟨s, hok⟩ := Except.exists_eq_ok_of_isOk hisOk
  obtain ⟨steps, _, hkeys, _, full, hfull, hperm, hsorted, hcaps⟩ := diagnostics_ordered _ hok
  rw [steps.reported_eq] at hreported
  obtain ⟨hcodes, hreverse⟩ := Prod.mk.inj (Option.some.inj hreported)
  have hincreasing : full.diagnostics.Pairwise fun d e => d.sortLe e = true :=
    (List.pairwise_map.mp hsorted).imp fun hlt => Diagnostic.sortLe_iff_sortKey_le.mpr hlt.le
  have hpresented : full.diagnostics = steps.diagnostics.reverse :=
    calc full.diagnostics
        = Diagnostic.sort full.diagnostics := (List.mergeSort_of_pairwise hincreasing).symm
      _ = Diagnostic.sort steps.diagnostics := Diagnostic.sort_eq_of_perm hkeys hperm
      _ = Diagnostic.sort steps.diagnostics.reverse :=
        (Diagnostic.sort_eq_of_perm hkeys (List.reverse_perm _)).symm
      _ = steps.diagnostics.reverse :=
        List.mergeSort_of_pairwise (of_decide_eq_true hreverse)
  have hshown : full.diagnostics.map (fun d => (d.code, d.range.start.offset)) =
      [(.operandSurplus, 6), (.malformedLexeme, 6)] := by
    rw [hpresented, List.map_reverse, hcodes]
    rfl
  have hlength : steps.diagnostics.length = 2 := by
    simpa using congrArg List.length hcodes
  rw [hlength] at hcaps
  obtain ⟨capped, hcapped, hat⟩ := hcaps 1
  cases hok.symm.trans hcapped
  have hfirst : s.diagnostics.map Diagnostic.code = [.operandSurplus] := by
    have hfsts := congrArg (List.map Prod.fst) hshown
    rw [List.map_map] at hfsts
    rw [hat.diagnostics, List.map_take]
    exact congrArg (List.take 1) hfsts
  have hdropped : s.dropped = 1 := by
    have hcount := hat.dropped
    have hone : s.diagnostics.length = 1 := by simpa using congrArg List.length hfirst
    omega
  exact ⟨s, hok, hfirst, hdropped, full, hfull, hshown, hsorted, hcaps⟩

end AsmHighlight.Highlighter
