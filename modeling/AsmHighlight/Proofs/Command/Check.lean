-- SUMMARY: The verdict of a check, and what a cap on diagnostics hides from it.
import AsmHighlight.Proofs.Command.Session
import AsmHighlight.Proofs.Highlighter.Ordered
import AsmHighlight.Proofs.Highlighter.Sized
import AsmHighlight.Proofs.Keyed

/-!
# Checking documents

A check fails if some document has a diagnostic that counts: an error, or any at
all if the check is strict. It looks at the diagnostics that the cap leaves
visible, so its verdict is that of the documents exactly when the cap does not
hide all the diagnostics that count (`check_ends`). With a cap of zero every
check succeeds (`check_hides_error`).
-/

namespace AsmHighlight

-- ---------------------------------------------------------------------------
-- Visible diagnostics
-- ---------------------------------------------------------------------------

/-- The diagnostic counts against its document. -/
def Diagnostic.Counts (strict : Bool) (d : Diagnostic) : Prop :=
  d.severity = .error ∨ strict = true

/-- Some list of diagnostics holds one that counts. -/
def Diagnostic.AnyCounts (strict : Bool) (reports : List (List Diagnostic)) : Prop :=
  ∃ ds ∈ reports, ∃ d ∈ ds, d.Counts strict

namespace Highlighter

/-- The diagnostics that the cap leaves visible. -/
def visible (h : Highlighter) (ds : List Diagnostic) : List Diagnostic :=
  h.policy.cap.elim ds fun n => ds.take n

variable {h : Highlighter} {source : String} {version : Json} {full : Stream}

/-- A document is highlighted with a cap if it is without, and only the diagnostics beyond
    the cap are missing. -/
theorem exists_visible (hfull : (h.withCap none).highlight source version = .ok full) :
    ∃ stream, h.highlight source version = .ok stream ∧
      stream.diagnostics = h.visible full.diagnostics := by
  obtain ⟨steps, rfl⟩ := highlight_eq_ok_iff.mp hfull
  refine ⟨_, highlight_eq_ok_iff.mpr ⟨steps.withCap h.policy.cap, rfl⟩, ?_⟩
  have hcapped (cap : Option Nat) : ((steps.withCap cap).stream version).diagnostics =
      (h.withCap cap).visible (steps.stream version).diagnostics := by
    cases cap with
    | none => rfl
    | some n => exact (cappedAt_emit n version _ _ _).diagnostics
  exact hcapped h.policy.cap

/-- What is visible and counts also counts without the cap. -/
theorem anyCounts_of_visible {strict : Bool} {streams : List Stream}
    (hcounts : Diagnostic.AnyCounts strict
      (streams.map fun full => h.visible full.diagnostics)) :
    Diagnostic.AnyCounts strict (streams.map Stream.diagnostics) := by
  obtain ⟨_, hmem, d, hd, hcounts⟩ := hcounts
  obtain ⟨full, hfull, rfl⟩ := List.mem_map.mp hmem
  refine ⟨_, List.mem_map_of_mem hfull, d, ?_, hcounts⟩
  unfold visible at hd
  cases hcap : h.policy.cap with
  | none =>
    rw [hcap] at hd
    exact hd
  | some n =>
    rw [hcap] at hd
    exact List.mem_of_mem_take hd

end Highlighter

namespace Command

namespace Session

theorem isFailure_iff {strict : Bool} {stream : Stream} :
    isFailure strict stream = true ↔ ∃ d ∈ stream.diagnostics, d.Counts strict := by
  rw [isFailure, Stream.hasErrors, Bool.or_eq_true, List.any_eq_true, Bool.and_eq_true,
    Bool.not_eq_true', List.isEmpty_eq_false_iff_exists_mem]
  constructor
  · rintro (⟨d, hd, herror⟩ | ⟨hstrict, d, hd⟩)
    · exact ⟨d, hd, .inl (by simpa [Diagnostic.isError] using herror)⟩
    · exact ⟨d, hd, .inr hstrict⟩
  · rintro ⟨d, hd, hseverity | hstrict⟩
    · exact .inl ⟨d, hd, by simp [Diagnostic.isError, hseverity]⟩
    · exact .inr ⟨hstrict, d, hd⟩

-- ---------------------------------------------------------------------------
-- The loop
-- ---------------------------------------------------------------------------

/-- The file can be read and highlighted, and `full` is all that there is to say about it.
    To be written as JSON it must be short. -/
def Reports (tree : File.Tree) (h : Highlighter) (format : Format) (path : String)
    (full : Stream) : Prop :=
  ∃ source, Highlighter.readSource tree .utf8 (File.normalize path) = .ok source ∧
    (h.withCap none).highlight source (.str (File.normalize path)) = .ok full ∧
    (format = .json → Highlighter.IsShort source)

/-- What holds of a check under way: its highlighter is that of the session, and its
    results can be written. -/
structure Progress.Sound (h : Highlighter) (p : Progress) : Prop where
  ready : ∀ r ∈ p.ready, r = h
  written : ∀ field ∈ p.results, field.2.hasOverlong = false

variable {s : Session} {h : Highlighter} (hready : s.prepare.result = .ok h)
  {format : Format} {strict : Bool}

theorem ending_finishCheck {p : Progress} (hp : Progress.Sound h p) :
    (finishCheck format p).ending = .exit (if p.failed then found else success) := by
  cases format with
  | text => rfl
  | json =>
    have hwritten := Json.hasOverlong_object_eq_false hp.written
    have htext := Json.indented_of_hasOverlong_eq_false hwritten
    exact congrArg Outcome.ending (printJson_of_ok htext p.transcript _)

@[simp] theorem failed_progress (s : Session) (file source : String) (p : Progress)
    (t : Transcript) (stream : Stream) :
    (s.progress format strict file source h p t stream).failed =
      (p.failed || isFailure strict stream) := rfl

/-- Highlighting one more document keeps the check sound. -/
theorem Progress.Sound.progress {p : Progress} (hp : Progress.Sound h p) {path source : String}
    {stream : Stream} (hok : h.highlight source (.str path) = .ok stream)
    (hshort : format = .json → Highlighter.IsShort source) (t : Transcript) :
    Progress.Sound h (s.progress format strict path source h p t stream) := by
  refine ⟨fun r hr => (Option.some.inj hr).symm, fun field hfield => ?_⟩
  cases format with
  | text => exact hp.written field hfield
  | json =>
    have hsize := hshort rfl
    rw [Highlighter.IsShort] at hsize
    obtain ⟨steps, rfl⟩ := Highlighter.highlight_eq_ok_iff.mp hok
    rcases Keyed.mem_put hfield with hold | rfl
    · exact hp.written field hold
    · refine Json.hasOverlong_arr_eq_false fun item hitem => ?_
      obtain ⟨d, hd, rfl⟩ := List.mem_map.mp hitem
      have hwithin := steps.diagnostic_within (steps.mem_diagnostics_of_mem_stream hd)
      exact Diagnostic.hasOverlong_toJson (by omega) hwithin

include hready

/-- A document that can be read and highlighted is added to the results, and the check goes
    on with the others. -/
theorem exists_checkFrom_cons {p : Progress} (hp : Progress.Sound h p) {path source : String}
    {rest : List String} {stream : Stream}
    (hsource : Highlighter.readSource s.tree .utf8 (File.normalize path) = .ok source)
    (hok : h.highlight source (.str (File.normalize path)) = .ok stream) :
    ∃ t, s.checkFrom format strict p (path :: rest) =
      s.checkFrom format strict
        (s.progress format strict (File.normalize path) source h p t stream) rest := by
  have hprepared : (s.highlighterFor p).result = .ok h := by
    unfold highlighterFor
    split
    next r hr => rw [hp.ready r hr]
    next => exact hready
  refine ⟨(p.transcript.log s.verbose (s.highlighterFor p).log).log s.verbose
    (h.run source (.str (File.normalize path))).log, ?_⟩
  conv_lhs => unfold checkFrom
  dsimp only
  rw [hsource]
  dsimp only
  rw [proceed_of_ok hprepared, proceed_of_ok (Except.mapError_eq_ok_iff.mpr hok)]

/-- A check of documents that can be read and highlighted comes to a verdict: it has failed
    before, or some diagnostic that the cap leaves visible counts. -/
theorem exists_ending_checkFrom {files : List String} {streams : List Stream}
    (hfiles : List.Forall₂ (Reports s.tree h format) files streams) {p : Progress}
    (hp : Progress.Sound h p) :
    ∃ status, (s.checkFrom format strict p files).ending = .exit status ∧
      (status = success ∨ status = found) ∧
      (status = found ↔ p.failed = true ∨
        Diagnostic.AnyCounts strict (streams.map fun full => h.visible full.diagnostics)) := by
  induction hfiles generalizing p with
  | nil =>
    refine ⟨_, ending_finishCheck hp, ?_⟩
    cases p.failed <;> simp [found, success, Diagnostic.AnyCounts]
  | cons hfile _ ih =>
    obtain ⟨source, hsource, hfull, hshort⟩ := hfile
    obtain ⟨stream, hok, hvisible⟩ := Highlighter.exists_visible hfull
    obtain ⟨t, hstep⟩ := exists_checkFrom_cons hready hp hsource hok
    obtain ⟨status, hend, hone, hverdict⟩ := ih (hp.progress hok hshort t)
    refine ⟨status, hstep ▸ hend, hone, ?_⟩
    rw [hverdict, failed_progress, Bool.or_eq_true, isFailure_iff, hvisible, or_assoc]
    simp only [Diagnostic.AnyCounts, List.map_cons, List.mem_cons, or_and_right, exists_or,
      exists_eq_left]

end Session

-- ---------------------------------------------------------------------------
-- The command
-- ---------------------------------------------------------------------------

/-- A check of documents that can be read and highlighted succeeds or finds something, and
    it finds something exactly when a diagnostic counts that the cap leaves visible. This
    is what the documents deserve unless the cap hides every diagnostic that counts. -/
theorem check_ends {tree : File.Tree} {environment : List (String × String)}
    {arguments : List String} {verbose : Bool} {grammar : Option String} {files : List String}
    {format : Format} {strict : Bool} {h : Highlighter} {streams : List Stream}
    (hread : readInvocation tree arguments =
      .ok (.run verbose grammar (.check files format strict)))
    (hready : (Session.mk tree environment verbose grammar).prepare.result = .ok h)
    (hfiles : List.Forall₂ (Session.Reports tree h format) files streams) :
    ∃ status, (run tree environment arguments).ending = .exit status ∧
      (status = success ∨ status = found) ∧
      (status = found ↔
        Diagnostic.AnyCounts strict (streams.map fun full => h.visible full.diagnostics)) ∧
      ((status = found ↔ Diagnostic.AnyCounts strict (streams.map Stream.diagnostics)) ↔
        (Diagnostic.AnyCounts strict (streams.map Stream.diagnostics) →
          Diagnostic.AnyCounts strict (streams.map fun full => h.visible full.diagnostics))) := by
  have hstart : Session.Progress.Sound h ⟨{}, none, false, []⟩ := ⟨by simp, by simp⟩
  obtain ⟨status, hend, hone, hverdict⟩ := Session.exists_ending_checkFrom hready hfiles hstart
  have hverdict : status = found ↔
      Diagnostic.AnyCounts strict (streams.map fun full => h.visible full.diagnostics) := by
    simpa using hverdict
  refine ⟨status, ?_, hone, hverdict, ?_⟩
  · rw [run_eq_perform hread]
    exact hend
  · rw [hverdict]
    constructor
    · exact fun hiff => hiff.mpr
    · exact fun hshows => ⟨Highlighter.anyCounts_of_visible, hshows⟩

/-- A document without remarks, and one with an unknown label. -/
def goodAndBad : File.Tree :=
  documents [("good.lasm", ".a: jp a".toList), ("bad.lasm", "jp b".toList)]

theorem readSource_bad : Highlighter.readSource goodAndBad .utf8 (File.normalize "bad.lasm") =
    .ok "jp b" := by
  with_unfolding_all rfl

/-- The unknown label is the only error of the document. -/
theorem exists_highlight_bad : ∃ full d,
    Highlighter.standard.highlight "jp b" (.str (File.normalize "bad.lasm")) = .ok full ∧
      full.diagnostics = [d] ∧ d.severity = .error := by
  have hbad : (Highlighter.standard.highlight "jp b" (.str (File.normalize "bad.lasm"))).toOption.map
      (fun full => full.diagnostics.map Diagnostic.severity) = some [.error] := by
    with_unfolding_all decide
  cases hfull : Highlighter.standard.highlight "jp b" (.str (File.normalize "bad.lasm")) with
  | error fault => rw [hfull] at hbad; cases hbad
  | ok full =>
    rw [hfull] at hbad
    obtain ⟨d, hd, hseverity⟩ := List.map_eq_singleton_iff.mp (Option.some.inj hbad)
    exact ⟨full, d, rfl, hd, hseverity⟩

/-- The second of two documents is found to have an error, with a cap that shows it. -/
theorem check_ends_second :
    readInvocation goodAndBad ["check", "-f", "json", "good.lasm", "bad.lasm"] =
        .ok (.run false none (.check ["good.lasm", "bad.lasm"] .json false)) ∧
      (Session.mk goodAndBad [(Settings.capVariable, "1")] false none).prepare.result =
        .ok (Highlighter.standard.withCap (some 1)) ∧
      (∃ streams, List.Forall₂
        (Session.Reports goodAndBad (Highlighter.standard.withCap (some 1)) .json)
        ["good.lasm", "bad.lasm"] streams) ∧
      (run goodAndBad [(Settings.capVariable, "1")]
        ["check", "-f", "json", "good.lasm", "bad.lasm"]).ending = .exit found := by
  have hread : readInvocation goodAndBad ["check", "-f", "json", "good.lasm", "bad.lasm"] =
      .ok (.run false none (.check ["good.lasm", "bad.lasm"] .json false)) := by
    with_unfolding_all rfl
  have hready : (Session.mk goodAndBad [(Settings.capVariable, "1")] false none).prepare.result =
      .ok (Highlighter.standard.withCap (some 1)) := by
    with_unfolding_all rfl
  have hsource : Highlighter.readSource goodAndBad .utf8 (File.normalize "good.lasm") =
      .ok ".a: jp a" := by
    with_unfolding_all rfl
  have hok : (Highlighter.standard.highlight ".a: jp a"
      (.str (File.normalize "good.lasm"))).isOk = true := by
    with_unfolding_all decide
  have hshort {source : String} (hsize : 5 * source.length + 32 < 10 ^ 3) :
      Highlighter.IsShort source :=
    Highlighter.isShort_of_lt (by decide) hsize
  obtain ⟨good, hgood⟩ := Except.exists_eq_ok_of_isOk hok
  obtain ⟨bad, d, hbad, hd, hseverity⟩ := exists_highlight_bad
  have hfiles : List.Forall₂
      (Session.Reports goodAndBad (Highlighter.standard.withCap (some 1)) .json)
      ["good.lasm", "bad.lasm"] [good, bad] :=
    .cons ⟨_, hsource, hgood, fun _ => hshort (by decide)⟩
      (.cons ⟨_, readSource_bad, hbad, fun _ => hshort (by decide)⟩ .nil)
  obtain ⟨status, hend, _, hverdict, _⟩ := check_ends hread hready hfiles
  have hvisible : d ∈ (Highlighter.standard.withCap (some 1)).visible bad.diagnostics := by
    rw [hd]
    exact List.mem_singleton_self d
  have hfound : status = found :=
    hverdict.mpr ⟨_, List.mem_map_of_mem (List.mem_cons_of_mem _ (List.mem_singleton_self _)),
      d, hvisible, .inl hseverity⟩
  exact ⟨hread, hready, ⟨_, hfiles⟩, hfound ▸ hend⟩

/-- With a cap of zero a check succeeds although the document has an error. -/
theorem check_hides_error :
    readInvocation goodAndBad ["check", "bad.lasm"] =
        .ok (.run false none (.check ["bad.lasm"] .text false)) ∧
      (Session.mk goodAndBad [(Settings.capVariable, "0")] false none).prepare.result =
        .ok (Highlighter.standard.withCap (some 0)) ∧
      (∃ full, Session.Reports goodAndBad (Highlighter.standard.withCap (some 0)) .text
          "bad.lasm" full ∧
        ∃ d ∈ full.diagnostics, d.severity = .error) ∧
      (run goodAndBad [(Settings.capVariable, "0")] ["check", "bad.lasm"]).ending =
        .exit success := by
  have hread : readInvocation goodAndBad ["check", "bad.lasm"] =
      .ok (.run false none (.check ["bad.lasm"] .text false)) := by
    with_unfolding_all rfl
  have hready : (Session.mk goodAndBad [(Settings.capVariable, "0")] false none).prepare.result =
      .ok (Highlighter.standard.withCap (some 0)) := by
    with_unfolding_all rfl
  have hend : (run goodAndBad [(Settings.capVariable, "0")] ["check", "bad.lasm"]).ending =
      .exit success := by
    with_unfolding_all rfl
  obtain ⟨bad, d, hbad, hd, hseverity⟩ := exists_highlight_bad
  exact ⟨hread, hready,
    ⟨bad, ⟨_, readSource_bad, hbad, nofun⟩, d, hd ▸ List.mem_singleton_self d, hseverity⟩, hend⟩

end Command

end AsmHighlight
