-- SUMMARY: Highlighting does not depend on the line ends of a document.
import AsmHighlight.Diagnostic.Report
import AsmHighlight.Proofs.Highlighter.Relocated
import AsmHighlight.Proofs.Lexeme.Rescan
import AsmHighlight.Proofs.Source.LineEnds
import AsmHighlight.Stream.Semantic

/-!
# Documents with other line ends

The same lines, joined by LF, by CR LF or by CR, have the same lexemes on the same
lines and in the same columns (`Lexeme.alike_intercalate`), so one document is the
relocation of the other. Such a relocation moves offsets only. It is seen neither in
the integers for an editor, which take the length of a token from its offsets but
nothing else (`Stream.semanticFrom_relocate`), nor in a report, which shows lines
and columns (`Diagnostic.report_relocate`).
-/

namespace AsmHighlight

/-- The positions have the same line and column. -/
def Position.SamePlace (p q : Position) : Prop :=
  q.line = p.line ∧ q.column = p.column

theorem Position.SamePlace.text_eq {p q : Position} (h : p.SamePlace q) : q.text = p.text := by
  simp only [text, h.1, h.2]

-- ---------------------------------------------------------------------------
-- Lexemes
-- ---------------------------------------------------------------------------

namespace Lexeme

variable {sigil : Option Char}

theorem alike_scanFrom {p q : Position} (h : p.SamePlace q) (cs : List Char) :
    List.Forall₂ (Alike Position.SamePlace) (scanFrom sigil p cs) (scanFrom sigil q cs) := by
  have hq : q = (Relocation.move 0 (q.offset - p.offset)).start p := by
    obtain ⟨hline, hcolumn⟩ := h
    cases q
    simp_all [Relocation.move]
  rw [hq, scanFrom_move, List.forall₂_map_right_iff, List.forall₂_same]
  intro l _
  have hmove (r : Position) : r.SamePlace ((Relocation.move 0 (q.offset - p.offset)).start r) :=
    ⟨Int.add_zero _, rfl⟩
  exact ⟨rfl, rfl, rfl, hmove _, hmove _⟩

/-- A line is scanned on its own, and the next one from its start. -/
theorem scanFrom_line {e : LineEnd} {line rest : List Char}
    (hline : ∀ c ∈ line, Text.isLineBreak c = false) (hends : e.EndsBefore rest) (p : Position) :
    ∃ q : Position, q.line = p.line + 1 ∧ q.column = 1 ∧
      scanFrom sigil p (line ++ e.chars ++ rest) = scanFrom sigil p line ++ scanFrom sigil q rest := by
  have hbreak : AtBreak (e.chars ++ rest) := by
    intro c hc
    refine e.isLineBreak_of_mem c ?_
    cases e with
    | lf | crlf | cr => exact Option.mem_some.mp hc ▸ List.mem_cons_self ..
  have hblank : ∀ c ∈ e.chars, Text.isBlank c = true :=
    fun c hc => Text.isBlank_of_isLineBreak (e.isLineBreak_of_mem c hc)
  obtain ⟨hnext, hcolumn⟩ := LineEnd.after_chars hends (p.shift line.length)
  refine ⟨_, hnext, hcolumn, ?_⟩
  rw [List.append_assoc, scanFrom_append sigil p line hbreak, Position.after_of_inLine hline,
    scanFrom_blanks hblank]

/-- Lines that are joined by different line ends have the same lexemes in the same
    places. -/
theorem alike_intercalate (e e' : LineEnd) {lines : List (List Char)}
    (h : ∀ line ∈ lines, ∀ c ∈ line, Text.isLineBreak c = false) {p q : Position}
    (hplace : p.SamePlace q) :
    List.Forall₂ (Alike Position.SamePlace) (scanFrom sigil p (e.chars.intercalate lines))
      (scanFrom sigil q (e'.chars.intercalate lines)) := by
  induction lines generalizing p q with
  | nil => exact alike_scanFrom hplace []
  | cons line more ih =>
    have hline := h line (List.mem_cons_self ..)
    have hmore : ∀ line ∈ more, ∀ c ∈ line, Text.isLineBreak c = false :=
      fun next hnext => h next (List.mem_cons_of_mem line hnext)
    cases more with
    | nil =>
      rw [List.intercalate_singleton, List.intercalate_singleton]
      exact alike_scanFrom hplace line
    | cons next more =>
      rw [List.intercalate_cons_cons, List.intercalate_cons_cons]
      obtain ⟨p', hp'line, hp'column, hp'⟩ :=
        scanFrom_line hline (e.endsBefore_intercalate hmore) p
      obtain ⟨q', hq'line, hq'column, hq'⟩ :=
        scanFrom_line hline (e'.endsBefore_intercalate hmore) q
      rw [hp', hq']
      refine List.rel_append (alike_scanFrom hplace line) (ih hmore ⟨?_, ?_⟩)
      · rw [hp'line, hq'line, hplace.1]
      · rw [hp'column, hq'column]

end Lexeme

-- ---------------------------------------------------------------------------
-- What shows places
-- ---------------------------------------------------------------------------

section Shown

variable {ρ : Relocation} (hstart : ∀ p : Position, p.SamePlace (ρ.start p))

include hstart

theorem Stream.semanticFrom_relocate {tokens : List Token}
    (hlength : ∀ t ∈ tokens, (t.relocate ρ).range.length = t.range.length) (line char : Int) :
    semanticFrom line char (tokens.map (Token.relocate ρ)) = semanticFrom line char tokens := by
  induction tokens generalizing line char with
  | nil => rfl
  | cons t rest ih =>
    have hmodifiers : modifiers (t.relocate ρ) = modifiers t := by
      simp only [modifiers, Token.category_relocate, Token.isResolved_relocate]
    have hplace : (t.relocate ρ).range.start.line = t.range.start.line ∧
        (t.relocate ρ).range.start.column = t.range.start.column := hstart _
    rw [List.map_cons, semanticFrom, semanticFrom, hlength t (List.mem_cons_self ..), hmodifiers,
      hplace.1, hplace.2, Token.category_relocate, ih fun u hu => hlength u (List.mem_cons_of_mem t hu)]

variable (hstop : ∀ p : Position, p.SamePlace (ρ.stop p))

include hstop

theorem Diagnostic.render_relocate {source moved : String}
    (hlines : Text.lines moved = Text.lines source) (d : Diagnostic) (filename : String) :
    (d.relocate ρ).render (some moved) filename = d.render (some source) filename := by
  have hexcerpt : excerpt moved (d.range.relocate ρ) = excerpt source d.range := by
    simp only [excerpt, sourceLine?, caretCount, Range.relocate, (hstart _).1, (hstart _).2,
      (hstop _).1, (hstop _).2, hlines]
  simp only [render, relocate, Option.elim_some, hexcerpt]
  simp only [Range.relocate, (hstart _).text_eq]
  rfl

/-- A report shows lines and columns, and the lines of the document. -/
theorem Diagnostic.report_relocate {source moved : String}
    (hlines : Text.lines moved = Text.lines source) (ds : List Diagnostic) (filename : String) :
    report (ds.map (relocate ρ)) (some moved) filename = report ds (some source) filename := by
  have hsummary : summary (ds.map (relocate ρ)) filename = summary ds filename := by
    simp only [summary, errorCount, List.countP_map, List.length_map]
    rfl
  rw [report, report, hsummary, List.flatMap_map]
  simp only [render_relocate hstart hstop hlines]

end Shown

-- ---------------------------------------------------------------------------
-- Highlighting
-- ---------------------------------------------------------------------------

namespace Highlighter

theorem length_of_mem_tokens {h : Highlighter} {source : String} {version : Json} {s : Stream}
    (hok : h.highlight source version = .ok s) : ∀ t ∈ s.tokens, t.range.length = t.text.length := by
  obtain ⟨steps, rfl⟩ := highlight_eq_ok_iff.mp hok
  rw [steps.tokens_stream]
  exact steps.length_eq

/-- A document with other line ends has the stream of the document, with other offsets. -/
theorem exists_highlight_join (h : Highlighter) {lines : List String}
    (hlines : ∀ line ∈ lines, ∀ c ∈ line.toList, Text.isLineBreak c = false) (e e' : LineEnd)
    (version : Json) :
    ∃ ρ : Relocation, (∀ p : Position, p.SamePlace (ρ.start p)) ∧
      (∀ p : Position, p.SamePlace (ρ.stop p)) ∧
      h.highlight (e'.join lines) version =
        (h.highlight (e.join lines) version).map (Stream.relocate ρ) := by
  have halike : List.Forall₂ (Lexeme.Alike Position.SamePlace) (h.lexemes (e.join lines))
      (h.lexemes (e'.join lines)) := by
    rw [lexemes, lexemes, Lexeme.scan, Lexeme.scan, LineEnd.toList_join, LineEnd.toList_join]
    exact Lexeme.alike_intercalate e e' (by simpa using hlines) ⟨rfl, rfl⟩
  obtain ⟨ρ, hstart, hstop, hlexemes⟩ :=
    exists_relocation_lexemes (fun _ => ⟨rfl, rfl⟩) (fun _ _ hplace => hplace.1) halike
  refine ⟨ρ, hstart, hstop, ?_⟩
  have hmoved :=
    highlight_relocate hlexemes (Label.sameDuplicateHints_id fun p => (hstart p).text_eq) version
  have hid : Stream.mapHints id = id := funext Stream.mapHints_id
  simp only [Stream.mapHints_id, hid, Except.map_id, id] at hmoved
  exact hmoved

/-- Lines that are joined by LF, by CR LF or by CR are highlighted alike: the streams
    agree on all but offsets, and the integers for an editor and the report are the same. -/
theorem highlight_line_ends (h : Highlighter) {lines : List String}
    (hlines : ∀ line ∈ lines, ∀ c ∈ line.toList, Text.isLineBreak c = false) (e e' : LineEnd)
    (version : Json) :
    (h.highlight (e.join lines) version).map (Stream.relocate .forgetOffsets) =
      (h.highlight (e'.join lines) version).map (Stream.relocate .forgetOffsets) ∧
    ∀ s s', h.highlight (e.join lines) version = .ok s →
      h.highlight (e'.join lines) version = .ok s' →
      s.semanticTokens = s'.semanticTokens ∧
      ∀ filename, Diagnostic.report s.diagnostics (some (e.join lines)) filename =
        Diagnostic.report s'.diagnostics (some (e'.join lines)) filename := by
  obtain ⟨ρ, hstart, hstop, hmoved⟩ := exists_highlight_join h hlines e e' version
  constructor
  · rw [hmoved]
    cases h.highlight (e.join lines) version with
    | error fault => rfl
    | ok s =>
      refine congrArg Except.ok ?_
      rw [Stream.relocate_trans, Relocation.trans_forgetOffsets hstart hstop]
  · intro s s' hs hs'
    have hlength := length_of_mem_tokens hs
    have hlength' := length_of_mem_tokens hs'
    rw [hs, hs'] at hmoved
    obtain rfl : s' = s.relocate ρ := Except.ok.inj hmoved
    constructor
    · refine (Stream.semanticFrom_relocate hstart (fun t ht => ?_) 0 0).symm
      rw [hlength t ht, hlength' _ (List.mem_map_of_mem ht), Token.text_relocate]
    · intro filename
      exact (Diagnostic.report_relocate hstart hstop (LineEnd.lines_join_eq e' e hlines)
        s.diagnostics filename).symm

/-- An empty line, a comment and a string that is not closed come before line ends. -/
theorem highlight_line_ends_mixed : ∃ s s',
    standard.highlight (LineEnd.crlf.join [".a ;b", "", "jp \"c\\", "#d8"]) = .ok s ∧
    standard.highlight (LineEnd.cr.join [".a ;b", "", "jp \"c\\", "#d8"]) = .ok s' ∧
    s.relocate .forgetOffsets = s'.relocate .forgetOffsets ∧
    s.semanticTokens = s'.semanticTokens := by
  have hlines : ∀ line ∈ [".a ;b", "", "jp \"c\\", "#d8"], ∀ c ∈ line.toList,
      Text.isLineBreak c = false := by simp [Text.isLineBreak]
  have hends := highlight_line_ends standard hlines .crlf .cr .null
  have hisOk : (standard.highlight (LineEnd.crlf.join [".a ;b", "", "jp \"c\\", "#d8"])).isOk =
      true := by with_unfolding_all decide
  obtain ⟨s, hs⟩ := Except.exists_eq_ok_of_isOk hisOk
  rw [hs] at hends
  obtain ⟨s', hs', hagree⟩ := Except.map_eq_ok_iff.mp hends.1.symm
  exact ⟨s, s', hs, hs', hagree.symm, (hends.2 s s' rfl hs').1⟩

end Highlighter

end AsmHighlight
