-- SUMMARY: How a command comes to its documents, and how it ends if it does not.
import AsmHighlight.Command.Run
import AsmHighlight.Proofs.Except
import AsmHighlight.Proofs.Grammar.Extended

/-!
# Sessions

A command prepares its highlighter and highlights its file before it shows
anything: up to there it only writes to the error output, and every failure is
told to the caller (`onFile_of_ok`, `onFile_of_error`). Nothing but a mistake or a
failure inside comes of a failure (`status_fail`). The grammar of a session is the
built-in one or extends it (`extended_of_prepare`).
-/

namespace AsmHighlight

-- ---------------------------------------------------------------------------
-- Grammar files
-- ---------------------------------------------------------------------------

namespace Grammar.Extended

variable {base g : Grammar}

theorem of_addFrom (h : base.Extended) {path : String} {data : Json}
    (hadd : (base.addFrom path data).result = .ok g) : g.Extended := by
  unfold addFrom at hadd
  split at hadd
  next => cases hadd
  next ext hext =>
    split at hadd
    next => cases hadd
    next _ hg =>
      cases hadd
      exact .add h (Except.bind_eq_ok_iff.mpr ⟨ext, hext, Except.mapError_eq_ok_iff.mpr hg⟩)

theorem of_load (h : base.Extended) {tree : File.Tree} {path : String}
    (hload : (base.load tree path).result = .ok g) : g.Extended := by
  unfold load at hload
  dsimp only at hload
  split at hload
  next => cases hload
  next => exact h.of_addFrom hload

end Grammar.Extended

namespace Command

-- ---------------------------------------------------------------------------
-- Transcripts
-- ---------------------------------------------------------------------------

/-- A log is printed to the error output. -/
theorem Transcript.output_log (t : Transcript) (verbose : Bool) (records : List Log.Record) :
    (t.log verbose records).output = t.output := by
  induction records generalizing t with
  | nil => rfl
  | cons r rest ih =>
    calc (t.log verbose (r :: rest)).output
        = ((t.record verbose r).log verbose rest).output := rfl
      _ = (t.record verbose r).output := ih _
      _ = t.output := by
        unfold record
        split
        next => rfl
        next => split <;> rfl

theorem Transcript.output_fail (t : Transcript) (verbose : Bool) (failure : Failure) :
    (t.fail verbose failure).transcript.output = t.output := by
  unfold fail complain
  split <;> rfl

/-- All trouble is a mistake of the caller or a failure inside. -/
theorem Complaint.status_about (trouble : Trouble) (message : String) :
    (Complaint.about trouble message).status = misused ∨
      (Complaint.about trouble message).status = broken := by
  cases trouble with
  | other => exact .inr rfl
  | _ => exact .inl rfl

theorem Complaint.status_ofFailure (failure : Failure) :
    (Complaint.ofFailure failure).status = misused ∨
      (Complaint.ofFailure failure).status = broken :=
  status_about (.ofFailure failure) failure.message

theorem Transcript.ending_fail (t : Transcript) (verbose : Bool) (failure : Failure) :
    (t.fail verbose failure).ending = .exit (Complaint.ofFailure failure).status := by
  unfold fail complain
  split <;> rfl

/-- A tree of files in the working directory, with a byte for each character. -/
def documents (files : List (String × List Char)) : File.Tree :=
  .ofPaths (files.map fun (path, cs) => (path, cs.map fun c => UInt8.ofNat c.toNat)) []

/-- A command line that is understood performs its action. -/
theorem run_eq_perform {tree : File.Tree} {environment : List (String × String)}
    {arguments : List String} {verbose : Bool} {grammar : Option String} {action : Action}
    (hread : readInvocation tree arguments = .ok (.run verbose grammar action)) :
    run tree environment arguments =
      Session.perform ⟨tree, environment, verbose, grammar⟩ action := by
  rw [run, hread]

namespace Session

variable {s : Session}

-- ---------------------------------------------------------------------------
-- JSON
-- ---------------------------------------------------------------------------

theorem printJson_of_ok {value : Json} {text : String} (h : value.indented = .ok text)
    (t : Transcript) (status : Nat) : printJson t value status = ⟨t.echo text, .exit status⟩ := by
  rw [printJson, h]

theorem printJson_of_hasOverlong {value : Json} (h : value.hasOverlong = true) (t : Transcript)
    (status : Nat) : printJson t value status = ⟨t, .escaped (.overlong .writing)⟩ := by
  rw [printJson, Json.indented, if_pos h]

-- ---------------------------------------------------------------------------
-- Highlighters
-- ---------------------------------------------------------------------------

theorem grammar_withSettings {g : Grammar} {h : Highlighter} (hready : s.withSettings g = .ok h) :
    h.grammar = g := by
  unfold withSettings at hready
  split at hready
  next => cases hready
  next => cases hready; rfl

theorem extended_of_prepare {h : Highlighter} (hready : s.prepare.result = .ok h) :
    h.grammar.Extended := by
  unfold prepare at hready
  split at hready
  next =>
    rw [grammar_withSettings hready]
    exact .builtin
  next path _ =>
    dsimp only at hready
    split at hready
    next => cases hready
    next g hload =>
      rw [grammar_withSettings hready]
      exact Grammar.Extended.builtin.of_load hload

-- ---------------------------------------------------------------------------
-- Documents
-- ---------------------------------------------------------------------------

/-- The stream of a file, once the highlighter is ready. -/
def streamOf (s : Session) (file : String) : Except Failure Stream := do
  let h ← s.prepare.result
  (h.highlightFile s.tree file).result

theorem proceed_of_ok {α : Type} {t : Transcript} {activity : Logged Failure α}
    {next : Transcript → α → Outcome} {value : α} (h : activity.result = .ok value) :
    s.proceed t activity next = next (t.log s.verbose activity.log) value := by
  rw [proceed, h]

theorem proceed_of_error {α : Type} {t : Transcript} {activity : Logged Failure α}
    {next : Transcript → α → Outcome} {failure : Failure} (h : activity.result = .error failure) :
    s.proceed t activity next = (t.log s.verbose activity.log).fail s.verbose failure := by
  rw [proceed, h]

variable {file : String} {next : Transcript → Stream → Outcome}

/-- A command on one file goes on with the stream of the file. -/
theorem onFile_of_ok {stream : Stream} (hstream : s.streamOf file = .ok stream) :
    ∃ t : Transcript, t.output = "" ∧ s.onFile file next = next t stream := by
  obtain ⟨h, hready, hok⟩ := Except.bind_eq_ok_iff.mp hstream
  rw [onFile, proceed_of_ok hready, proceed_of_ok hok]
  exact ⟨_, by rw [Transcript.output_log, Transcript.output_log], rfl⟩

/-- A command on one file tells of the failure if the file has no stream. -/
theorem onFile_of_error {failure : Failure} (hfailure : s.streamOf file = .error failure) :
    ∃ t : Transcript, t.output = "" ∧ s.onFile file next = t.fail s.verbose failure := by
  rw [onFile]
  rcases Except.bind_eq_error_iff.mp hfailure with hready | ⟨h, hready, herror⟩
  · rw [proceed_of_error hready]
    exact ⟨_, by rw [Transcript.output_log], rfl⟩
  · rw [proceed_of_ok hready, proceed_of_error herror]
    exact ⟨_, by rw [Transcript.output_log, Transcript.output_log], rfl⟩

/-- The stream of a file comes from the text of the file. -/
theorem streamOf_eq_ok_iff {stream : Stream} :
    s.streamOf file = .ok stream ↔ ∃ h source, s.prepare.result = .ok h ∧
      Highlighter.readSource s.tree .utf8 (File.normalize file) = .ok source ∧
      h.highlight source (.str (File.normalize file)) = .ok stream := by
  constructor
  · intro hstream
    obtain ⟨h, hready, hok⟩ := Except.bind_eq_ok_iff.mp hstream
    unfold Highlighter.highlightFile at hok
    dsimp only at hok
    split at hok
    next => cases hok
    next source hsource =>
      exact ⟨h, source, hready, hsource, Except.mapError_eq_ok_iff.mp hok⟩
  · rintro ⟨h, source, hready, hsource, hok⟩
    refine Except.bind_eq_ok_iff.mpr ⟨h, hready, ?_⟩
    unfold Highlighter.highlightFile
    dsimp only
    rw [hsource]
    exact Except.mapError_eq_ok_iff.mpr hok

end Session

end Command

end AsmHighlight
