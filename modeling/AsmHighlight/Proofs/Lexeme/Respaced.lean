-- SUMMARY: The lexemes of a document do not depend on the blanks between them.
import AsmHighlight.Proofs.Lexeme.Rescan

/-!
# Other blanks between lexemes

A text is respaced by putting other blanks before its lexemes, without adding or
removing a line break (`Respaced`). Two lexemes on one line are kept apart by at
least one blank, even if they touch in the text. Every text can be respaced
(`exists_respaced`).

A blank ends a word, and what follows a comment or an unclosed string is a line
break, which stays. So whatever stopped a lexeme still does (`Respaced.stops`), and
the respaced text has the same lexemes on the same lines (`Respaced.alike`).
-/

namespace AsmHighlight

/-- The positions are on the same line. -/
def Position.SameLine (p q : Position) : Prop :=
  q.line = p.line

/-- On which line reading ends depends only on the line where it starts. -/
theorem Position.SameLine.after {p q : Position} (h : p.SameLine q) (read rest : List Char) :
    (p.after read rest).SameLine (q.after read rest) := by
  induction read generalizing p q with
  | nil => exact h
  | cons c read ih =>
    refine ih ?_
    unfold Position.advance
    split
    next => exact congrArg (· + 1) h
    next => exact h

namespace Lexeme

/-- The characters are blanks on one line. -/
def IsGap (cs : List Char) : Prop :=
  ∀ c ∈ cs, Text.isBlank c = true ∧ Text.isLineBreak c = false

instance : DecidablePred IsGap := fun cs =>
  decidable_of_iff (cs.all fun c => Text.isBlank c && !Text.isLineBreak c) (by simp [IsGap])

/-- The second text has the lexemes `texts` and the line breaks of the first, but other
    blanks before the lexemes; `behind` says that a lexeme comes before the texts. -/
inductive Respaced : (behind : Bool) → (texts : List String) → List Char → List Char → Prop where
  /-- The blanks behind the last lexeme stay. -/
  | tail {behind : Bool} {blanks : List Char} (hblank : ∀ c ∈ blanks, Text.isBlank c = true) :
    Respaced behind [] blanks blanks
  /-- The blanks up to the line of the next lexeme stay, and those on its line change. If the
      lexeme is not the first of its line, some blank comes before it. -/
  | text {behind : Bool} {kept old new rest rest' : List Char} {text : String}
      {texts : List String} (hkept : ∀ c ∈ kept, Text.isBlank c = true)
      (hbreak : ∀ c ∈ kept.getLast?, Text.isLineBreak c = true) (hold : IsGap old)
      (hnew : IsGap new) (hapart : behind = true → kept = [] → new ≠ [])
      (hrest : Respaced true texts rest rest') :
    Respaced behind (text :: texts) (kept ++ old ++ (text.toList ++ rest))
      (kept ++ new ++ (text.toList ++ rest'))

-- ---------------------------------------------------------------------------
-- Lines
-- ---------------------------------------------------------------------------

/-- Neither a gap nor what is not blank begins with a line break. -/
theorem IsGap.inLine_head {gap piece : List Char} (hgap : IsGap gap)
    (hpiece : ∀ c ∈ piece.head?, Text.isBlank c = false) :
    ∀ c ∈ (gap ++ piece).head?, Text.isLineBreak c = false := by
  intro c hc
  cases gap with
  | nil =>
    by_contra hbreak
    have hblank := Text.isBlank_of_isLineBreak (by simpa using hbreak)
    rw [hpiece c hc] at hblank
    cases hblank
  | cons d gap =>
    cases hc
    exact (hgap c (List.mem_cons_self ..)).2

/-- A gap does not change the line on which the next lexeme stands. -/
theorem sameLine_after_gap {p q : Position} (h : p.SameLine q) (kept : List Char)
    {old new rest rest' : List Char} (hold : IsGap old) (hnew : IsGap new)
    (hrest : ∀ c ∈ rest.head?, Text.isBlank c = false)
    (hrest' : ∀ c ∈ rest'.head?, Text.isBlank c = false) :
    (p.after (kept ++ old) rest).SameLine (q.after (kept ++ new) rest') := by
  have hhead {gap piece : List Char} (hgap : IsGap gap)
      (hpiece : ∀ c ∈ piece.head?, Text.isBlank c = false) :
      (gap ++ piece).head? ≠ some '\n' := by
    intro hlf
    exact absurd (hgap.inLine_head hpiece '\n' hlf) (by decide)
  rw [Position.after_append, Position.after_append,
    Position.after_of_inLine fun c hc => (hold c hc).2,
    Position.after_of_inLine fun c hc => (hnew c hc).2,
    Position.after_congr (iff_of_false (hhead hold hrest) (hhead hnew hrest')) p kept]
  exact h.after kept _

-- ---------------------------------------------------------------------------
-- Lexemes
-- ---------------------------------------------------------------------------

variable {sigil : Option Char} {behind : Bool} {texts : List String} {cs cs' : List Char}

/-- A lexeme does not begin with a blank. -/
theorem exists_cons_of_mem_scanFrom {p : Position} {l : Lexeme} (h : l ∈ scanFrom sigil p cs) :
    ∃ c more, l.text.toList = c :: more ∧ Text.isBlank c = false := by
  fun_induction scanFrom sigil p cs with
  | case1 => cases h
  | case2 p c rest hc ih => exact ih h
  | case3 p c rest hc piece ih =>
    cases h with
    | head =>
      obtain ⟨more, hchars⟩ := pieceAt_chars_head sigil c rest
      exact ⟨c, more, by rw [ofPiece, String.toList_ofList, hchars], by simpa using hc⟩
    | tail _ h => exact ih h

/-- What stops a lexeme stops it in the respaced text. -/
theorem Respaced.stops (h : Respaced true texts cs cs')
    (htexts : ∀ text ∈ texts, ∃ c more, text.toList = c :: more ∧ Text.isBlank c = false)
    {kind : Kind} (hstops : kind.Stops sigil cs) : kind.Stops sigil cs' := by
  cases h with
  | tail _ => exact hstops
  | @text _ kept old new rest rest' text texts _ _ hold hnew hapart _ =>
    cases kept with
    | cons c kept => exact hstops
    | nil =>
      -- The next lexeme is on the same line, so no comment or unclosed string comes before it.
      obtain ⟨c, more, htext, hc⟩ := htexts text (List.mem_cons_self ..)
      have hpiece : ∀ d ∈ (text.toList ++ rest).head?, Text.isBlank d = false := by
        rw [htext]
        rintro _ ⟨⟩
        exact hc
      have hinLine := hold.inLine_head hpiece
      obtain ⟨d, hd⟩ : ∃ d, d ∈ (old ++ (text.toList ++ rest)).head? := by
        rw [htext]
        cases old with
        | nil => exact ⟨c, rfl⟩
        | cons d old => exact ⟨d, rfl⟩
      have hline : Text.isLineBreak d = false := hinLine d hd
      have hstop : kind.stopsAt sigil d = true := hstops d hd
      obtain ⟨e, gap, rfl⟩ := List.exists_cons_of_ne_nil (hapart rfl rfl)
      rintro _ ⟨⟩
      cases kind with
      | comment | invalid => rw [Kind.stopsAt, hline] at hstop; cases hstop
      | word =>
        simp [Kind.stopsAt, isOrdinary_of_isBlank (hnew e (List.mem_cons_self ..)).1]
      | string | punctuation => rfl

/-- A respaced text has the same lexemes on the same lines. -/
theorem Respaced.alike (h : Respaced behind texts cs cs') {p q : Position} (hline : p.SameLine q)
    (htexts : (scanFrom sigil p cs).map Lexeme.text = texts) :
    List.Forall₂ (Alike Position.SameLine) (scanFrom sigil p cs) (scanFrom sigil q cs') := by
  induction h generalizing p q with
  | @tail _ blanks hblank =>
    have hnone (p : Position) : scanFrom sigil p blanks = [] := by
      rw [← List.append_nil blanks, scanFrom_blanks hblank, scanFrom_nil]
    rw [hnone, hnone]
    exact .nil
  | @text _ kept old new rest rest' text texts hkept hbreak hold hnew hapart hrest ih =>
    have hblanks {gap : List Char} (hgap : IsGap gap) :
        ∀ c ∈ kept ++ gap, Text.isBlank c = true :=
      List.forall_mem_append.mpr ⟨hkept, fun c hc => (hgap c hc).1⟩
    rw [scanFrom_blanks (hblanks hold)] at htexts ⊢
    rw [scanFrom_blanks (hblanks hnew)]
    have hpieces : ∀ t ∈ text :: texts, ∃ c more, t.toList = c :: more ∧
        Text.isBlank c = false := by
      rw [← htexts]
      exact List.forall_mem_map.mpr fun l hl => exists_cons_of_mem_scanFrom hl
    obtain ⟨⟨c, more, htext, hc⟩, hpieces⟩ := List.forall_mem_cons.mp hpieces
    have hhead (rest : List Char) : ∀ d ∈ (text.toList ++ rest).head?, Text.isBlank d = false := by
      rw [htext]
      rintro _ ⟨⟩
      exact hc
    have hplace := sameLine_after_gap hline kept hold hnew (hhead rest) (hhead rest')
    generalize p.after (kept ++ old) (text.toList ++ rest) = p at htexts hplace ⊢
    generalize q.after (kept ++ new) (text.toList ++ rest') = q at hplace ⊢
    rw [htext, List.cons_append, scanFrom_piece hc] at htexts ⊢
    obtain ⟨hfirst, htexts⟩ := List.cons.inj htexts
    have hchars : (pieceAt sigil c (more ++ rest)).chars = c :: more := by
      rw [← htext, ← hfirst, ofPiece, String.toList_ofList]
    have hremains : (pieceAt sigil c (more ++ rest)).rest = rest := by
      have happend := pieceAt_chars_append_rest sigil c (more ++ rest)
      rw [hchars] at happend
      exact List.append_cancel_left happend
    have hstops := pieceAt_stops sigil c (more ++ rest)
    rw [hremains] at hstops htexts ⊢
    have hagain := pieceAt_eq_of_stops (hrest.stops hpieces hstops)
    rw [hchars, List.tail_cons] at hagain
    rw [List.cons_append, scanFrom_piece hc, hagain]
    exact .cons ⟨rfl, rfl, rfl, hplace, hplace⟩ (ih hplace htexts)

-- ---------------------------------------------------------------------------
-- Every text
-- ---------------------------------------------------------------------------

/-- Before the next lexeme there is no line break. -/
theorem Respaced.sameLine (behind : Bool) {old new rest rest' : List Char} (text : String)
    (hold : IsGap old) (hnew : IsGap new) (hapart : behind = true → new ≠ [])
    (hrest : Respaced true texts rest rest') :
    Respaced behind (text :: texts) (old ++ (text.toList ++ rest))
      (new ++ (text.toList ++ rest')) :=
  @Respaced.text behind [] old new rest rest' text texts nofun nofun hold hnew
    (fun h _ => hapart h) hrest

/-- A text with one more blank in front can be respaced too. -/
theorem Respaced.exists_cons {c : Char} (hc : Text.isBlank c = true)
    (h : Respaced behind texts cs cs') : ∃ cs', Respaced behind texts (c :: cs) cs' := by
  cases h with
  | tail hblank => exact ⟨_, .tail (List.forall_mem_cons.mpr ⟨hc, hblank⟩)⟩
  | @text _ kept old new rest rest' text texts hkept hbreak hold hnew hapart hrest =>
    by_cases hinLine : kept = [] ∧ Text.isLineBreak c = false
    · obtain ⟨rfl, hline⟩ := hinLine
      have hold : IsGap (c :: old) := List.forall_mem_cons.mpr ⟨⟨hc, hline⟩, hold⟩
      exact ⟨_, .text hkept hbreak hold hnew hapart hrest⟩
    · have hkept : ∀ d ∈ c :: kept, Text.isBlank d = true :=
        List.forall_mem_cons.mpr ⟨hc, hkept⟩
      have hbreak : ∀ d ∈ (c :: kept).getLast?, Text.isLineBreak d = true := by
        cases kept with
        | nil =>
          rintro _ ⟨⟩
          simpa using hinLine
        | cons d kept => exact hbreak
      exact ⟨_, .text hkept hbreak hold hnew (fun _ h => by cases h) hrest⟩

/-- Every text can be respaced. -/
theorem exists_respaced {gap : List Char} (hgap : IsGap gap) (hne : gap ≠ []) (sigil : Option Char)
    (p : Position) (cs : List Char) (behind : Bool) :
    ∃ cs', Respaced behind ((scanFrom sigil p cs).map Lexeme.text) cs cs' := by
  fun_induction scanFrom sigil p cs generalizing behind with
  | case1 p => exact ⟨[], .tail (List.forall_mem_nil _)⟩
  | case2 p c rest hc ih =>
    obtain ⟨_, hrest⟩ := ih behind
    exact hrest.exists_cons hc
  | case3 p c rest hc piece ih =>
    obtain ⟨rest', hrest⟩ := ih true
    have htext : c :: rest = (ofPiece p piece).text.toList ++ piece.rest := by
      rw [ofPiece, String.toList_ofList]
      exact (pieceAt_chars_append_rest sigil c rest).symm
    have hnone : IsGap [] := List.forall_mem_nil _
    rw [htext]
    exact ⟨_, .sameLine behind _ hnone hgap (fun _ => hne) hrest⟩

end Lexeme

end AsmHighlight
