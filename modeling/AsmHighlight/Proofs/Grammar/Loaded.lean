-- SUMMARY: Which grammar files are loaded or refused, and on which loading breaks down instead.
import AsmHighlight.Grammar.Load
import AsmHighlight.Proofs.Grammar.Accepted
import AsmHighlight.Proofs.Json.Returned
import AsmHighlight.Proofs.Text.Encoding

/-!
# Loading grammar files

Most of what can be wrong with a grammar file is refused under the name of the
file (`Failure.RefusesFile`). Four things are not: a null character in the name,
bytes that are not UTF-8, an integer that is too long, and values that are nested
too deep. A file without the last three can be taken in (`Grammar.TakenIn`), and
under a name without null characters loading keeps to grammars and refusals
exactly for such files and for those that cannot be opened
(`Grammar.load_refuses_iff`). Text that stays within the bounds of the reader can
always be taken in (`Grammar.takenIn_of_bounded`), and what is read from it always
has the texts that a message or a mnemonic needs.
-/

namespace AsmHighlight

/-- The failure refuses the grammar file at a path, in a message that starts with it. -/
def Failure.RefusesFile (path : String) (failure : Failure) : Prop :=
  ∃ message hint rest, failure = .grammar ⟨message, some path, hint⟩ ∧
    failure.message = path ++ ": " ++ rest

/-- The failure is one of opening, decoding or reading, which names no file. -/
def Failure.IsBreakdown : Failure → Prop
  | .nullPath => True
  | .encoding _ => True
  | .nesting _ => True
  | .token (.overlong _) => True
  | _ => False

theorem Failure.IsBreakdown.not_refusesFile {failure : Failure} (h : failure.IsBreakdown)
    (path : String) : ¬ failure.RefusesFile path := by
  rintro ⟨message, hint, _, rfl, _⟩
  exact h

theorem Failure.refusesFile_grammar {path : String} (hpath : path ≠ "") (message : String)
    (hint : Option String) : (Failure.grammar ⟨message, some path, hint⟩).RefusesFile path := by
  have hnamed : (some path).filter (· ≠ "") = some path := by simp [Option.filter, hpath]
  have hheadline : Refusal.headline ⟨message, some path, hint⟩ = path ++ ": " ++ message := by
    simp only [Refusal.headline, hnamed]
    rfl
  have htext : ∃ rest, Refusal.text ⟨message, some path, hint⟩ = path ++ ": " ++ rest := by
    simp only [Refusal.text, hheadline]
    split
    next hint _ =>
      refine ⟨message ++ "\nhint: " ++ hint, ?_⟩
      rw [← String.append_assoc, ← String.append_assoc]
      rfl
    next => exact ⟨message, rfl⟩
  obtain ⟨rest, hrest⟩ := htext
  exact ⟨message, hint, rest, rfl, hrest⟩

namespace Grammar

/-- The bytes are a text in UTF-8 that the reader of JSON gets through within its bounds:
    it comes upon no integer that is too long and no value that is nested too deep. -/
def TakenIn (bytes : List UInt8) : Prop :=
  ∃ text : String, bytes = text.toList.flatMap String.utf8EncodeChar ∧
    ∀ fault, Json.read (String.ofList (Text.unifyLineEnds text.toList)) = .error fault →
      ∃ reason offset, fault = .malformed reason offset

theorem takenIn_iff {bytes : List UInt8} {text : String}
    (htext : Text.Encoding.utf8.decode bytes = .ok text) :
    TakenIn bytes ↔
      ∀ fault, Json.read (String.ofList (Text.unifyLineEnds text.toList)) = .error fault →
        ∃ reason offset, fault = .malformed reason offset := by
  constructor
  · rintro ⟨text', hbytes, hread⟩
    cases htext.symm.trans (Text.decode_utf8_eq_ok_iff.mpr hbytes)
    exact hread
  · exact fun hread => ⟨text, Text.decode_utf8_eq_ok_iff.mp htext, hread⟩

/-- Text that keeps to the bounds can be taken in. -/
theorem takenIn_of_bounded {text : String}
    (hbounded : Json.Bounded (Text.unifyLineEnds text.toList)) :
    TakenIn (text.toList.flatMap String.utf8EncodeChar) := by
  refine ⟨text, rfl, fun fault => Json.malformed_of_bounded ?_⟩
  rw [String.toList_ofList]
  exact hbounded

-- ---------------------------------------------------------------------------
-- Reading
-- ---------------------------------------------------------------------------

section Read

variable {tree : File.Tree} {path : String}

theorem readFile_of_read_eq_error {fault : File.Fault}
    (hread : tree.read path = .error (.system fault)) :
    readFile tree path =
      .error (.grammar ⟨s!"cannot read grammar file: {fault.cause.text}", some path, none⟩) := by
  rw [readFile, hread]
  rfl

/-- Reading stops short of the system exactly at a null character. -/
theorem read_eq_nullCharacter_iff :
    tree.read path = .error .nullCharacter ↔ File.hasNull path = true := by
  unfold File.Tree.read
  split
  next h => simp [h]
  next h => split <;> simp [h]

theorem readFile_of_hasNull (hnull : File.hasNull path = true) :
    readFile tree path = .error .nullPath := by
  rw [readFile, read_eq_nullCharacter_iff.mpr hnull]
  rfl

theorem readFile_of_decode_eq_error {bytes : List UInt8} {fault : Text.EncodingFault}
    (hread : tree.read path = .ok bytes)
    (hdecode : Text.Encoding.utf8.decode bytes = .error fault) :
    readFile tree path = .error (.encoding fault) := by
  rw [readFile, hread]
  simp only [Except.mapError_ok, bind, Except.bind, hdecode, Except.mapError_error]

/-- What becomes of the faults of the reader of JSON: the text is refused if it is not
    JSON, and the bounds of the reader are failures of their own. -/
theorem readFile_of_decode_eq_ok {bytes : List UInt8} {text : String}
    (hread : tree.read path = .ok bytes) (hdecode : Text.Encoding.utf8.decode bytes = .ok text) :
    ∃ failureOf : Json.ReadFault → Failure,
      readFile tree path =
        (Json.read (String.ofList (Text.unifyLineEnds text.toList))).mapError failureOf ∧
      (∀ reason offset, ∃ message,
        failureOf (.malformed reason offset) = .grammar ⟨message, some path, none⟩) ∧
      (∀ cause, failureOf (.overlong cause) = .token (.overlong cause)) ∧
      ∀ container, failureOf (.tooDeep container) = .nesting container := by
  rw [readFile, hread]
  simp only [Except.mapError_ok, bind, Except.bind, hdecode]
  exact ⟨_, rfl, fun _ _ => ⟨_, rfl⟩, fun _ => rfl, fun _ => rfl⟩

/-- What is read from a file fits, so its parts can be rendered. -/
theorem fits_of_readFile {data : Json} (h : readFile tree path = .ok data) :
    data.Fits (Json.maxDepth + 1) := by
  obtain ⟨bytes, -, h⟩ := Except.bind_eq_ok_iff.mp h
  obtain ⟨decoded, -, h⟩ := Except.bind_eq_ok_iff.mp h
  exact Json.fits_of_read (Except.mapError_eq_ok_iff.mp h)

/-- A file that can be taken in is read, or refused. -/
theorem refusesFile_of_readFile {bytes : List UInt8} {failure : Failure} (hpath : path ≠ "")
    (hread : tree.read path = .ok bytes) (htaken : TakenIn bytes)
    (hfailure : readFile tree path = .error failure) : failure.RefusesFile path := by
  obtain ⟨text, hbytes, hjson⟩ := htaken
  have hdecode := Text.decode_utf8_eq_ok_iff.mpr hbytes
  obtain ⟨failureOf, hfile, hmalformed, _, _⟩ := readFile_of_decode_eq_ok hread hdecode
  rw [hfile] at hfailure
  cases hresult : Json.read (String.ofList (Text.unifyLineEnds text.toList)) with
  | ok data => rw [hresult] at hfailure; cases hfailure
  | error fault =>
    rw [hresult] at hfailure
    obtain ⟨reason, offset, rfl⟩ := hjson fault hresult
    obtain ⟨message, hmessage⟩ := hmalformed reason offset
    cases hfailure
    rw [hmessage]
    exact Failure.refusesFile_grammar hpath message none

/-- Reading breaks down on any other file. -/
theorem exists_isBreakdown_of_readFile {bytes : List UInt8}
    (hread : tree.read path = .ok bytes) (htaken : ¬ TakenIn bytes) :
    ∃ failure, readFile tree path = .error failure ∧ failure.IsBreakdown := by
  cases hdecode : Text.Encoding.utf8.decode bytes with
  | error fault => exact ⟨_, readFile_of_decode_eq_error hread hdecode, trivial⟩
  | ok text =>
    obtain ⟨failureOf, hfile, _, hoverlong, hdeep⟩ := readFile_of_decode_eq_ok hread hdecode
    rw [takenIn_iff hdecode] at htaken
    cases hresult : Json.read (String.ofList (Text.unifyLineEnds text.toList)) with
    | ok data => exact absurd (fun fault hfault => by rw [hresult] at hfault; cases hfault) htaken
    | error fault =>
      refine ⟨failureOf fault, by rw [hfile, hresult]; rfl, ?_⟩
      cases fault with
      | malformed reason offset =>
        refine absurd (fun fault hfault => ?_) htaken
        rw [hresult] at hfault
        cases hfault
        exact ⟨reason, offset, rfl⟩
      | overlong cause => rw [hoverlong]; trivial
      | tooDeep container => rw [hdeep]; trivial

end Read

-- ---------------------------------------------------------------------------
-- Loading
-- ---------------------------------------------------------------------------

/-- An extension whose parts can be rendered is refused under the name of the file. -/
theorem refusesFile_of_addFrom {base : Grammar} {path : String} {data : Json} {failure : Failure}
    (hpath : path ≠ "") (hfits : data.Fits (Json.maxDepth + 1))
    (h : (base.addFrom path data).result = .error failure) : failure.RefusesFile path := by
  unfold addFrom at h
  split at h
  next rejection hrejection =>
    cases h
    obtain ⟨fault, rfl, -⟩ := exists_fault_of_rejection (hfits.mono (Nat.le_succ _))
      (isTrueOf_of_ofJson base hrejection)
    exact Failure.refusesFile_grammar hpath ..
  next =>
    split at h
    next => cases h; exact Failure.refusesFile_grammar hpath ..
    next => cases h

section Load

variable (base : Grammar) {tree : File.Tree} {path : String}

/-- A file that can be taken in, or that cannot be opened, is loaded or refused. -/
theorem refusesFile_of_load {failure : Failure} (hnull : File.hasNull path = false)
    (htaken : ∀ bytes, tree.read (File.normalize path) = .ok bytes → TakenIn bytes)
    (h : (base.load tree path).result = .error failure) :
    failure.RefusesFile (File.normalize path) := by
  have hpath := File.normalize_ne_empty path
  unfold load at h
  simp only at h
  split at h
  next failure' hfile =>
    cases h
    cases hread : tree.read (File.normalize path) with
    | error unread =>
      cases unread with
      | system fault =>
        cases (readFile_of_read_eq_error hread).symm.trans hfile
        exact Failure.refusesFile_grammar hpath ..
      | nullCharacter =>
        rw [read_eq_nullCharacter_iff, File.hasNull_normalize, hnull] at hread
        cases hread
    | ok bytes => exact refusesFile_of_readFile hpath hread (htaken bytes hread) hfile
  next data hdata => exact refusesFile_of_addFrom hpath (fits_of_readFile hdata) h

/-- Loading breaks down on any other file. -/
theorem exists_isBreakdown_of_load {bytes : List UInt8}
    (hread : tree.read (File.normalize path) = .ok bytes) (htaken : ¬ TakenIn bytes) :
    ∃ failure, (base.load tree path).result = .error failure ∧ failure.IsBreakdown := by
  obtain ⟨failure, hfile, hbreakdown⟩ := exists_isBreakdown_of_readFile hread htaken
  refine ⟨failure, ?_, hbreakdown⟩
  unfold load
  simp only [hfile]

/-- A path with a null character never reaches a file. -/
theorem load_of_hasNull (hnull : File.hasNull path = true) :
    (base.load tree path).result = .error .nullPath := by
  unfold load
  simp only [readFile_of_hasNull ((File.hasNull_normalize path).trans hnull)]

end Load

/-- Loading a grammar gives a grammar or a refusal that names the file, exactly for paths
    without null characters to files that can be taken in or cannot be opened. On others it
    breaks down. Files of text within the bounds of the reader are among those that can be
    taken in. -/
theorem load_refuses_iff (base : Grammar) (tree : File.Tree) (path : String) :
    ((∀ failure, (base.load tree path).result = .error failure →
        failure.RefusesFile (File.normalize path)) ↔
      File.hasNull path = false ∧
        ∀ bytes, tree.read (File.normalize path) = .ok bytes → TakenIn bytes) ∧
    (File.hasNull path = true → (base.load tree path).result = .error .nullPath) ∧
    (∀ bytes, tree.read (File.normalize path) = .ok bytes → ¬ TakenIn bytes →
      ∃ failure, (base.load tree path).result = .error failure ∧ failure.IsBreakdown) ∧
    ∀ text : String, Json.Bounded (Text.unifyLineEnds text.toList) →
      TakenIn (text.toList.flatMap String.utf8EncodeChar) := by
  refine ⟨⟨fun hrefused => ⟨?_, fun bytes hread => ?_⟩, fun ⟨hnull, htaken⟩ _ => ?_⟩,
    load_of_hasNull base, fun bytes => exists_isBreakdown_of_load base,
    fun _ => takenIn_of_bounded⟩
  · rw [← Bool.not_eq_true]
    intro hnull
    have hbreakdown : Failure.nullPath.IsBreakdown := trivial
    exact hbreakdown.not_refusesFile _ (hrefused _ (load_of_hasNull base hnull))
  · by_cases htaken : TakenIn bytes
    · exact htaken
    · obtain ⟨failure, hfailure, hbreakdown⟩ := exists_isBreakdown_of_load base hread htaken
      exact absurd (hrefused failure hfailure) (hbreakdown.not_refusesFile _)
  · exact refusesFile_of_load base hnull htaken

/-- A file of a byte that no text in UTF-8 starts with. -/
def undecodable : File.Tree :=
  .ofPaths [("g.json", [0xFF])] []

/-- Loading it ends in a fault of decoding, and not in a refusal. -/
theorem load_undecodable :
    ∃ failure, (builtin.load undecodable "g.json").result = .error failure ∧
      failure = .encoding ⟨.utf8, 0xFF, 0, 1, .invalidStart⟩ ∧ ¬ failure.RefusesFile "g.json" := by
  have hbreakdown : (Failure.encoding ⟨.utf8, 0xFF, 0, 1, .invalidStart⟩).IsBreakdown := trivial
  exact ⟨_, by with_unfolding_all rfl, rfl, hbreakdown.not_refusesFile "g.json"⟩

end Grammar

end AsmHighlight
