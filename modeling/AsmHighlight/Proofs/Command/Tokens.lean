-- SUMMARY: How the command that prints tokens ends.
import AsmHighlight.Proofs.Command.Session
import AsmHighlight.Proofs.Highlighter.Failure
import AsmHighlight.Proofs.Highlighter.Sized
import AsmHighlight.Proofs.Text.Encoding

/-!
# Printing tokens

What goes wrong before there is a stream is told to the caller. Printing comes
after that, and a token that cannot be shown ends the command on the spot. This
happens for the literals of integers that have no decimal text within the bound,
and for nothing else (`tokens_ends`). Such literals are not refused before: a
document may hold them wherever no decimal text is needed
(`tokens_wide_literal_ends`).
-/

namespace AsmHighlight.Command

namespace Session

-- ---------------------------------------------------------------------------
-- Printing
-- ---------------------------------------------------------------------------

/-- Tokens that all have a line are printed line by line. -/
theorem listTokens_of_forall₂ {tokens : List Token} {lines : List String}
    (h : List.Forall₂ (fun token line => token.listing = .ok line) tokens lines)
    (t : Transcript) : listTokens t tokens = ⟨lines.foldl Transcript.echo t, .exit success⟩ := by
  induction h generalizing t with
  | nil => rfl
  | cons hline _ ih =>
    rw [listTokens, hline]
    exact ih _

theorem exists_lines {tokens : List Token} (h : ∀ token ∈ tokens, ∃ line, token.listing = .ok line) :
    ∃ lines, List.Forall₂ (fun token line => token.listing = .ok line) tokens lines := by
  induction tokens with
  | nil => exact ⟨[], .nil⟩
  | cons token rest ih =>
    obtain ⟨⟨line, hline⟩, hrest⟩ := List.forall_mem_cons.mp h
    obtain ⟨lines, hlines⟩ := ih hrest
    exact ⟨line :: lines, .cons hline hlines⟩

/-- The first token without a line ends the printing. -/
theorem ending_listTokens_of_error {tokens : List Token} {fault : Token.Fault}
    (hall : ∀ token ∈ tokens, (∃ line, token.listing = .ok line) ∨ token.listing = .error fault)
    (hsome : ∃ token ∈ tokens, token.listing = .error fault) (t : Transcript) :
    (listTokens t tokens).ending = .escaped fault := by
  induction tokens generalizing t with
  | nil => simp at hsome
  | cons token rest ih =>
    obtain ⟨hfirst, hrest⟩ := List.forall_mem_cons.mp hall
    rcases hfirst with ⟨line, hline⟩ | herror
    · rw [listTokens, hline]
      refine ih hrest ?_ _
      obtain ⟨u, hu, herror⟩ := hsome
      rcases List.mem_cons.mp hu with rfl | hu
      · rw [hline] at herror
        cases herror
      · exact ⟨u, hu, herror⟩
    · rw [listTokens, herror]

-- ---------------------------------------------------------------------------
-- Shown tokens
-- ---------------------------------------------------------------------------

/-- The stream with the tokens that are shown. -/
def shownStream (noComments : Bool) (stream : Stream) : Stream :=
  { stream with tokens := shownTokens noComments stream }

/-- The texts show the tokens: a line for each of them, or one JSON document. -/
def Shows (format : Format) (noComments : Bool) (stream : Stream) (texts : List String) : Prop :=
  match format with
  | .text =>
    List.Forall₂ (fun token line => token.listing = .ok line) (shownTokens noComments stream) texts
  | .json => ∃ text, (shownStream noComments stream).toJson.indented = .ok text ∧ texts = [text]

/-- The file holds the literal of an integer that has no decimal text within the bound. -/
def HoldsLongLiteral (s : Session) (file : String) : Prop :=
  ∃ h source, s.prepare.result = .ok h ∧
    Highlighter.readSource s.tree .utf8 (File.normalize file) = .ok source ∧
    Highlighter.HasLongLiteral (h.lexemes source)

/-- A literal is shown whether comments are or not. -/
theorem mem_shownTokens {noComments : Bool} {stream : Stream} {token : Token}
    (h : token ∈ stream.tokens) (hcat : token.category = .integerLiteral) :
    token ∈ shownTokens noComments stream := by
  refine List.mem_filter.mpr ⟨h, ?_⟩
  rw [hcat]
  simp

theorem mem_of_mem_shownTokens {noComments : Bool} {stream : Stream} {token : Token}
    (h : token ∈ shownTokens noComments stream) : token ∈ stream.tokens :=
  List.mem_of_mem_filter h

section Document

variable {s : Session} {file : String} {stream : Stream}
  (hstream : s.streamOf file = .ok stream)

include hstream

/-- The tokens of a file are presented. -/
theorem exists_presented : ∃ (g : Grammar) (labels : Label.Table),
    ∀ token ∈ stream.tokens, token.Presented g labels := by
  obtain ⟨h, source, hready, _, hok⟩ := streamOf_eq_ok_iff.mp hstream
  obtain ⟨steps, rfl⟩ := Highlighter.highlight_eq_ok_iff.mp hok
  rw [steps.tokens_stream]
  exact ⟨_, _, steps.presented (extended_of_prepare hready).sound⟩

/-- A file holds a long literal exactly when one of its tokens that are shown is one. -/
theorem exists_shown_iff (noComments : Bool) :
    (∃ token ∈ shownTokens noComments stream, token.IsLongLiteral) ↔ s.HoldsLongLiteral file := by
  obtain ⟨h, source, hready, hsource, hok⟩ := streamOf_eq_ok_iff.mp hstream
  obtain ⟨steps, rfl⟩ := Highlighter.highlight_eq_ok_iff.mp hok
  have hiff := steps.exists_isLongLiteral_iff (extended_of_prepare hready).sound
  rw [← steps.tokens_stream (.str (File.normalize file))] at hiff
  constructor
  · rintro ⟨token, htoken, hlong⟩
    exact ⟨h, source, hready, hsource, hiff.mp ⟨token, mem_of_mem_shownTokens htoken, hlong⟩⟩
  · rintro ⟨h', source', hready', hsource', hlong⟩
    cases hready.symm.trans hready'
    cases hsource.symm.trans hsource'
    obtain ⟨token, htoken, hlong⟩ := hiff.mpr hlong
    exact ⟨token, mem_shownTokens htoken hlong.1, hlong⟩

/-- The JSON document of a file that is short can be written unless the file holds a long
    literal. -/
theorem hasOverlong_shownStream_iff
    (hshort : ∀ source, Highlighter.readSource s.tree .utf8 (File.normalize file) = .ok source →
      Highlighter.IsShort source) (noComments : Bool) :
    (shownStream noComments stream).toJson.hasOverlong = true ↔ s.HoldsLongLiteral file := by
  rw [← exists_shown_iff hstream noComments]
  obtain ⟨g, labels, hpresented⟩ := exists_presented hstream
  obtain ⟨h, source, hready, hsource, hok⟩ := streamOf_eq_ok_iff.mp hstream
  obtain ⟨steps, rfl⟩ := Highlighter.highlight_eq_ok_iff.mp hok
  have hwithin := steps.within (extended_of_prepare hready).sound
    (Json.hasOverlong_str (File.normalize file))
  have hshown : (shownStream noComments
      (steps.stream (.str (File.normalize file)))).Within (5 * source.length + 32) :=
    ⟨hwithin.version, fun token htoken => hwithin.tokens token (mem_of_mem_shownTokens htoken),
      hwithin.diagnostics, hwithin.labels, hwithin.dropped⟩
  rw [Stream.hasOverlong_toJson_iff hshown (hshort source hsource)]
  exact exists_congr fun token => and_congr_right fun htoken =>
    (hpresented token (mem_of_mem_shownTokens htoken)).hasLongValue_iff

variable {format : Format} {noComments : Bool}
  (hshort : format = .json →
    ∀ source, Highlighter.readSource s.tree .utf8 (File.normalize file) = .ok source →
      Highlighter.IsShort source)

include hshort

/-- Without a long literal, all that is shown is printed. -/
theorem tokens_of_not_holdsLongLiteral (hnone : ¬ s.HoldsLongLiteral file) :
    ∃ (t : Transcript) (texts : List String), t.output = "" ∧ Shows format noComments stream texts ∧
      s.tokens file format noComments = ⟨texts.foldl Transcript.echo t, .exit success⟩ := by
  obtain ⟨g, labels, hpresented⟩ := exists_presented hstream
  obtain ⟨t, ht, hrun⟩ := onFile_of_ok hstream
  rw [tokens, hrun]
  cases format with
  | text =>
    have hlines : ∀ token ∈ shownTokens noComments stream, ∃ line, token.listing = .ok line := by
      intro token htoken
      refine (hpresented token (mem_of_mem_shownTokens htoken)).exists_listing fun hlong => ?_
      exact hnone ((exists_shown_iff hstream noComments).mp ⟨token, htoken, hlong⟩)
    obtain ⟨lines, hlines⟩ := exists_lines hlines
    exact ⟨t, lines, ht, hlines, listTokens_of_forall₂ hlines t⟩
  | json =>
    have hwritten : (shownStream noComments stream).toJson.hasOverlong = false := by
      rw [← Bool.not_eq_true, hasOverlong_shownStream_iff hstream (hshort rfl)]
      exact hnone
    have htext := Json.indented_of_hasOverlong_eq_false hwritten
    exact ⟨t, _, ht, ⟨_, htext, rfl⟩, printJson_of_ok htext t success⟩

/-- A long literal ends the command when it is to be shown. -/
theorem ending_tokens_of_holdsLongLiteral (hlong : s.HoldsLongLiteral file) :
    (s.tokens file format noComments).ending = .escaped (.overlong .writing) := by
  obtain ⟨g, labels, hpresented⟩ := exists_presented hstream
  obtain ⟨t, ht, hrun⟩ := onFile_of_ok hstream
  rw [tokens, hrun]
  cases format with
  | text =>
    refine ending_listTokens_of_error (fun token htoken => ?_) ?_ t
    · have hp := hpresented token (mem_of_mem_shownTokens htoken)
      by_cases hlong : token.IsLongLiteral
      · exact .inr (hp.listing_eq_error hlong)
      · exact .inl (hp.exists_listing hlong)
    · obtain ⟨token, htoken, hlong⟩ := (exists_shown_iff hstream noComments).mpr hlong
      exact ⟨token, htoken,
        (hpresented token (mem_of_mem_shownTokens htoken)).listing_eq_error hlong⟩
  | json =>
    have hoverlong := (hasOverlong_shownStream_iff hstream (hshort rfl) noComments).mpr hlong
    exact congrArg Outcome.ending (printJson_of_hasOverlong hoverlong t success)

end Document

end Session

-- ---------------------------------------------------------------------------
-- The command
-- ---------------------------------------------------------------------------

/-- The command prints all that it shows, or tells the caller why there is no stream. It
    ends otherwise, with the status of a check that has found something, exactly when the
    file has a stream and holds the literal of an integer that has no decimal text within
    the bound. -/
theorem tokens_ends {tree : File.Tree} {environment : List (String × String)}
    {arguments : List String} {verbose : Bool} {grammar : Option String} {file : String}
    {format : Format} {noComments : Bool}
    (hread : readInvocation tree arguments =
      .ok (.run verbose grammar (.tokens file format noComments)))
    (hshort : format = .json →
      ∀ source, Highlighter.readSource tree .utf8 (File.normalize file) = .ok source →
        Highlighter.IsShort source) :
    let s : Session := ⟨tree, environment, verbose, grammar⟩
    let outcome := run tree environment arguments
    (∀ failure, s.streamOf file = .error failure →
      (∃ t : Transcript, t.output = "" ∧ outcome = t.fail verbose failure) ∧
        (outcome.ending = .exit misused ∨ outcome.ending = .exit broken)) ∧
    (∀ stream, s.streamOf file = .ok stream → ¬ s.HoldsLongLiteral file →
      ∃ (t : Transcript) (texts : List String), t.output = "" ∧
        Session.Shows format noComments stream texts ∧
        outcome = ⟨texts.foldl Transcript.echo t, .exit success⟩) ∧
    (∀ stream, s.streamOf file = .ok stream → s.HoldsLongLiteral file →
      outcome.ending = .escaped (.overlong .writing)) ∧
    (outcome.ending.status = found ↔
      (∃ stream, s.streamOf file = .ok stream) ∧ s.HoldsLongLiteral file) := by
  intro s outcome
  have hrun : outcome = s.tokens file format noComments := run_eq_perform hread
  have hfails : ∀ failure, s.streamOf file = .error failure →
      (∃ t : Transcript, t.output = "" ∧ outcome = t.fail verbose failure) ∧
        (outcome.ending = .exit misused ∨ outcome.ending = .exit broken) := by
    intro failure hfailure
    obtain ⟨t, ht, hfail⟩ := Session.onFile_of_error hfailure
    have hfail : outcome = t.fail verbose failure := hrun.trans hfail
    refine ⟨⟨t, ht, hfail⟩, ?_⟩
    rw [hfail, Transcript.ending_fail]
    exact (Complaint.status_ofFailure failure).imp (congrArg Ending.exit) (congrArg Ending.exit)
  have hprints : ∀ stream, s.streamOf file = .ok stream → ¬ s.HoldsLongLiteral file →
      ∃ (t : Transcript) (texts : List String), t.output = "" ∧
        Session.Shows format noComments stream texts ∧
        outcome = ⟨texts.foldl Transcript.echo t, .exit success⟩ := by
    intro stream hstream hnone
    rw [hrun]
    exact Session.tokens_of_not_holdsLongLiteral hstream hshort hnone
  have hescapes : ∀ stream, s.streamOf file = .ok stream → s.HoldsLongLiteral file →
      outcome.ending = .escaped (.overlong .writing) := by
    intro stream hstream hlong
    rw [hrun]
    exact Session.ending_tokens_of_holdsLongLiteral hstream hshort hlong
  refine ⟨hfails, hprints, hescapes, ?_⟩
  constructor
  · intro hstatus
    cases hresult : s.streamOf file with
    | error failure =>
      rcases (hfails failure hresult).2 with hend | hend
      · rw [hend] at hstatus
        cases hstatus
      · rw [hend] at hstatus
        cases hstatus
    | ok stream =>
      refine ⟨⟨stream, rfl⟩, ?_⟩
      by_contra hnone
      obtain ⟨t, texts, _, _, hend⟩ := hprints stream hresult hnone
      rw [hend] at hstatus
      cases hstatus
  · rintro ⟨⟨stream, hstream⟩, hlong⟩
    rw [hescapes stream hstream hlong]
    rfl

/-- A tree of one file that holds these characters. -/
def singleFile (cs : List Char) : File.Tree :=
  documents [("a.lasm", cs)]

/-- A file with a directive, its operand and a comment. -/
def commented : File.Tree :=
  singleFile "#d8 0x1F ; x".toList

/-- A directive and its operand are written as JSON without the comment. -/
theorem tokens_ends_commented :
    readInvocation commented ["tokens", "-f", "json", "--no-comments", "a.lasm"] =
        .ok (.run false none (.tokens "a.lasm" .json true)) ∧
      ¬ (Session.mk commented [] false none).HoldsLongLiteral "a.lasm" ∧
      ∃ stream, (Session.mk commented [] false none).streamOf "a.lasm" = .ok stream ∧
        ∃ (t : Transcript) (texts : List String), t.output = "" ∧
          Session.Shows .json true stream texts ∧
          run commented [] ["tokens", "-f", "json", "--no-comments", "a.lasm"] =
            ⟨texts.foldl Transcript.echo t, .exit success⟩ := by
  have hread : readInvocation commented ["tokens", "-f", "json", "--no-comments", "a.lasm"] =
      .ok (.run false none (.tokens "a.lasm" .json true)) := by
    with_unfolding_all rfl
  have hready : (Session.mk commented [] false none).prepare.result =
      .ok Highlighter.standard := by
    with_unfolding_all rfl
  have hsource : Highlighter.readSource commented .utf8 (File.normalize "a.lasm") =
      .ok "#d8 0x1F ; x" := by
    with_unfolding_all rfl
  have hshort : Highlighter.IsShort "#d8 0x1F ; x" := by
    have hsize : 5 * "#d8 0x1F ; x".length + 32 < 10 ^ 3 := by decide
    exact Highlighter.isShort_of_lt (by decide) hsize
  have hok : ((Session.mk commented [] false none).streamOf "a.lasm").isOk = true := by
    with_unfolding_all rfl
  have hnone : ¬ (Session.mk commented [] false none).HoldsLongLiteral "a.lasm" := by
    rintro ⟨h, source, hready', hsource', l, hl, hkind, v, hv, hlong⟩
    cases hready.symm.trans hready'
    cases hsource.symm.trans hsource'
    have hwords : ∀ l ∈ Highlighter.standard.lexemes "#d8 0x1F ; x", l.kind = .word →
        Literal.startsNumeric l.text = true → l.text = "0x1F" := by
      with_unfolding_all decide
    have hvalue : Literal.parseInteger "0x1F" = .ok (some 31) := by with_unfolding_all rfl
    have hend : "0x1F".toList.getLast? ≠ some '\n' := by simp
    have hfew : 31 < 10 ^ Decimal.maxDigits :=
      Nat.lt_of_lt_of_le (by decide : 31 < 10 ^ 2) (Nat.pow_le_pow_right (by decide) (by decide))
    rw [hwords l hl hkind hv.startsNumeric] at hv
    obtain ⟨h31, _⟩ := (Literal.parseInteger_eq_ok_some_iff hend).mp hvalue
    cases hv.unique h31
    exact absurd hlong (Nat.not_le.mpr hfew)
  obtain ⟨stream, hstream⟩ := Except.exists_eq_ok_of_isOk hok
  obtain ⟨_, hprints, _⟩ := @tokens_ends _ [] _ _ _ _ _ _ hread fun _ source hsource' => by
    cases hsource.symm.trans hsource'
    exact hshort
  exact ⟨hread, hnone, stream, hstream, hprints stream hstream hnone⟩

-- ---------------------------------------------------------------------------
-- A wide literal
-- ---------------------------------------------------------------------------

/-- A power of sixteen, alone in its document. -/
def wideLiteral : List Char :=
  '0' :: 'x' :: '1' :: Highlighter.zeros

theorem lexemes_wideLiteral : Highlighter.standard.lexemes (String.ofList wideLiteral) =
    [⟨.word, String.ofList wideLiteral, .ofLength .start wideLiteral.length, none⟩] := by
  rw [Highlighter.lexemes, Lexeme.scan, String.toList_ofList]
  exact Lexeme.scanFrom_last_word fun x hx => Highlighter.isOrdinary_of_mem_wide hx

theorem hasLongLiteral_wideLiteral :
    Highlighter.HasLongLiteral (Highlighter.standard.lexemes (String.ofList wideLiteral)) := by
  rw [lexemes_wideLiteral]
  refine ⟨_, List.mem_singleton_self _, rfl, _, ?_, Highlighter.le_natAbs_wide⟩
  rw [String.toList_ofList]
  exact Highlighter.isInteger_wide

/-- Nothing asks for the decimal text of a literal that stands alone. -/
theorem exists_highlight_wideLiteral (version : Json) :
    ∃ stream, Highlighter.standard.highlight (String.ofList wideLiteral) version = .ok stream := by
  rw [Except.exists_ok_iff, Highlighter.exists_highlight_eq_error_iff Grammar.builtin_sound,
    lexemes_wideLiteral]
  rintro (⟨l, hl, _, hlong⟩ | ⟨i, l, _, _, _, hl, _, htext, _⟩)
  · rw [List.mem_singleton.mp hl, String.toList_ofList] at hlong
    -- The mark of the base is no part of a decimal number.
    rcases hlong.1 with ⟨c, rest, hword, _, hrest⟩ | ⟨body, hword | hword, _⟩
    · obtain ⟨_, rfl⟩ := List.cons.inj hword
      exact absurd (hrest 'x' (List.mem_cons_self ..)) (by decide)
    · cases List.head_eq_of_cons_eq hword
    · cases List.head_eq_of_cons_eq hword
  · rw [List.mem_singleton.mp (List.mem_of_getElem? hl)] at htext
    have hsign : ∀ word ∈ ["#d8", "#d16", "#d32"], word.toList.head? = some '#' := by decide
    have hhead := hsign _ htext
    rw [String.toList_ofList] at hhead
    cases hhead

theorem readInvocation_singleFile (cs : List Char) :
    readInvocation (singleFile cs) ["tokens", "a.lasm"] =
      .ok (.run false none (.tokens "a.lasm" .text false)) := by
  with_unfolding_all rfl

theorem readSource_singleFile {cs : List Char} (h : ∀ c ∈ cs, c.toNat < 128) :
    Highlighter.readSource (singleFile cs) .utf8 (File.normalize "a.lasm") =
      .ok (String.ofList cs) := by
  have hbytes : (singleFile cs).read (File.normalize "a.lasm") =
      .ok (cs.map fun c => UInt8.ofNat c.toNat) := by
    with_unfolding_all rfl
  rw [Highlighter.readSource, hbytes, Except.mapError_ok]
  exact congrArg (fun decoded => decoded.mapError Failure.encoding) (Text.decode_ascii h)

/-- A wide literal that is highlighted ends the command with the status of a check that
    has found something, and the caller is not told. -/
theorem tokens_wide_literal_ends :
    readInvocation (singleFile wideLiteral) ["tokens", "a.lasm"] =
        .ok (.run false none (.tokens "a.lasm" .text false)) ∧
      (run (singleFile wideLiteral) [] ["tokens", "a.lasm"]).ending =
        .escaped (.overlong .writing) ∧
      (run (singleFile wideLiteral) [] ["tokens", "a.lasm"]).ending.status = found := by
  have hread := readInvocation_singleFile wideLiteral
  have hready : (Session.mk (singleFile wideLiteral) [] false none).prepare.result =
      .ok Highlighter.standard := by
    with_unfolding_all rfl
  have hascii : ∀ c ∈ wideLiteral, c.toNat < 128 := by
    intro c hc
    simp only [wideLiteral, List.mem_cons] at hc
    rcases hc with rfl | rfl | rfl | hc
    · decide
    · decide
    · decide
    · rw [List.eq_of_mem_replicate hc]
      decide
  have hsource := readSource_singleFile hascii
  obtain ⟨stream, hok⟩ := exists_highlight_wideLiteral (.str (File.normalize "a.lasm"))
  have hstream : (Session.mk (singleFile wideLiteral) [] false none).streamOf "a.lasm" =
      .ok stream :=
    Session.streamOf_eq_ok_iff.mpr ⟨_, _, hready, hsource, hok⟩
  have hescapes : ((Session.mk (singleFile wideLiteral) [] false none).tokens
      "a.lasm" .text false).ending = .escaped (.overlong .writing) :=
    Session.ending_tokens_of_holdsLongLiteral hstream (fun hjson => by cases hjson)
      ⟨_, _, hready, hsource, hasLongLiteral_wideLiteral⟩
  have hend : (run (singleFile wideLiteral) [] ["tokens", "a.lasm"]).ending =
      .escaped (.overlong .writing) := by
    rw [run_eq_perform hread]
    exact hescapes
  exact ⟨hread, hend, congrArg Ending.status hend⟩

end AsmHighlight.Command
