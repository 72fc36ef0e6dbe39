-- SUMMARY: Where the positions that reading reaches stand among the lines of a document.
import AsmHighlight.Proofs.Lexeme.Tiling
import AsmHighlight.Text.Line

/-!
# Reading a document

There are two ways to tell lines apart. Reading counts them character by
character, with a look ahead for the LF of a pair CR LF (`Position.after`);
`Text.splitLines` cuts a text into lines without a count. `exists_reached` says
that they agree wherever reading stops, except between the CR and the LF of a
pair: as many lines are finished as the position says, and as many characters
of the next one were read as its column says.

A range that covers part of one line (`Range.Covering`) is therefore found on
that line by its columns (`Range.Covering.exists_line`). The spans of a tiling
are such ranges, and so is the range from one of them to another on its line.
-/

namespace AsmHighlight

-- ---------------------------------------------------------------------------
-- Counting lines
-- ---------------------------------------------------------------------------

namespace Position

/-- The place after reading `read` when `rest` follows. -/
def after (p : Position) (read rest : List Char) : Position :=
  match read with
  | [] => p
  | c :: read => (p.advance c (read ++ rest)).after read rest

@[simp] theorem after_nil (p : Position) (rest : List Char) : p.after [] rest = p := rfl

theorem after_append (p : Position) (read more rest : List Char) :
    p.after (read ++ more) rest = (p.after read (more ++ rest)).after more rest := by
  induction read generalizing p with
  | nil => rfl
  | cons c read ih => simp only [List.cons_append, after, ih, List.append_assoc]

/-- Of what follows, reading sees only whether it begins with a line feed. -/
theorem after_congr {rest rest' : List Char}
    (h : rest.head? = some '\n' ↔ rest'.head? = some '\n') (p : Position) (read : List Char) :
    p.after read rest = p.after read rest' := by
  induction read generalizing p with
  | nil => rfl
  | cons c read ih =>
    have hadvance : p.advance c (read ++ rest) = p.advance c (read ++ rest') := by
      cases read with
      | nil => simp only [advance, List.nil_append, ne_eq, h]
      | cons d read => rfl
    rw [after, after, hadvance, ih]

theorem offset_after (p : Position) (read rest : List Char) :
    (p.after read rest).offset = p.offset + read.length := by
  induction read generalizing p with
  | nil => simp
  | cons c read ih =>
    rw [after, ih, offset_advance, List.length_cons]
    omega

theorem line_le_after (p : Position) (read rest : List Char) :
    p.line ≤ (p.after read rest).line := by
  induction read generalizing p with
  | nil => exact Int.le_refl _
  | cons c read ih => exact Int.le_trans (line_le_advance p c _) (ih _)

theorem advance_of_inLine {c : Char} (hc : Text.isLineBreak c = false) (p : Position)
    (rest : List Char) : p.advance c rest = p.shift 1 := by
  simp only [Text.isLineBreak, Bool.or_eq_false_iff, beq_eq_false_iff_ne] at hc
  simp [advance, hc.1, hc.2]

theorem shift_shift (p : Position) (m n : Nat) : (p.shift m).shift n = p.shift (m + n) := by
  simp [shift, Int.add_assoc]

/-- Reading without a line end moves by the characters read. -/
theorem after_of_inLine {read : List Char} (h : ∀ c ∈ read, Text.isLineBreak c = false)
    (p : Position) (rest : List Char) : p.after read rest = p.shift read.length := by
  induction read generalizing p with
  | nil => simp [shift]
  | cons c read ih =>
    rw [after, advance_of_inLine (h c (List.mem_cons_self ..)),
      ih fun x hx => h x (List.mem_cons_of_mem c hx), shift_shift, List.length_cons, Nat.add_comm]

end Position

/-- Reading has stopped between the CR and the LF of a pair. -/
def SplitsPair (read rest : List Char) : Prop :=
  read.getLast? = some '\r' ∧ rest.head? = some '\n'

theorem SplitsPair.cons {c : Char} {read rest : List Char} (h : SplitsPair read rest) :
    SplitsPair (c :: read) rest := by
  obtain ⟨front, rfl⟩ := List.getLast?_eq_some_iff.mp h.1
  exact ⟨by simp [List.getLast?_cons], h.2⟩

/-- Reading that ends on the line where it began has met no line end. -/
theorem inLine_of_line_after {p : Position} {read rest : List Char} (h : ¬ SplitsPair read rest)
    (hline : (p.after read rest).line = p.line) : ∀ c ∈ read, Text.isLineBreak c = false := by
  induction read generalizing p with
  | nil => simp
  | cons c more ih =>
    rw [Position.after] at hline
    by_cases hend : c = '\n' ∨ c = '\r' ∧ (more ++ rest).head? ≠ some '\n'
    · -- The line goes up by one here, and never back.
      have hle := Position.line_le_after (p.advance c (more ++ rest)) more rest
      rw [hline, Position.advance, if_pos hend] at hle
      simp only [Position.nextLine] at hle
      omega
    · rw [Position.advance, if_neg hend] at hline
      have hmore := ih (fun hs => h hs.cons) hline
      have hc : Text.isLineBreak c = false := by
        simp only [Text.isLineBreak, Bool.or_eq_false_iff, beq_eq_false_iff_ne]
        refine ⟨?_, fun hlf => hend (.inl hlf)⟩
        rintro rfl
        refine hend (.inr ⟨rfl, fun hhead => ?_⟩)
        cases more with
        | nil => exact h ⟨rfl, hhead⟩
        | cons d more =>
          cases hhead
          exact absurd (hmore '\n' (List.mem_cons_self ..)) (by decide)
      exact List.forall_mem_cons.mpr ⟨hc, hmore⟩

-- ---------------------------------------------------------------------------
-- Splitting into lines
-- ---------------------------------------------------------------------------

namespace Text

theorem splitLines_ne_nil (cs : List Char) : splitLines cs ≠ [] := by
  fun_cases splitLines cs with
  | case5 | case6 => simp [*]
  | _ => exact List.cons_ne_nil _ _

theorem splitLines_pair (rest : List Char) :
    splitLines ('\r' :: '\n' :: rest) = [] :: splitLines rest := by
  rw [splitLines]

theorem splitLines_cr {rest : List Char} (h : rest.head? ≠ some '\n') :
    splitLines ('\r' :: rest) = [] :: splitLines rest := by
  rw [splitLines]
  rintro more rfl
  exact h rfl

theorem splitLines_lf (rest : List Char) : splitLines ('\n' :: rest) = [] :: splitLines rest := by
  rw [splitLines]

theorem splitLines_cons_of_inLine {c : Char} (hc : isLineBreak c = false) (rest : List Char) :
    splitLines (c :: rest) = (splitLines rest).modifyHead (c :: ·) := by
  simp only [isLineBreak, Bool.or_eq_false_iff, beq_eq_false_iff_ne] at hc
  rw [splitLines]
  · cases h : splitLines rest with
    | nil => exact absurd h (splitLines_ne_nil rest)
    | cons line more => rfl
  · rintro more rfl rfl
    exact hc.1 rfl
  · exact hc.1
  · exact hc.2

theorem splitLines_append_of_inLine {piece : List Char}
    (h : ∀ c ∈ piece, isLineBreak c = false) (rest : List Char) :
    splitLines (piece ++ rest) = (splitLines rest).modifyHead (piece ++ ·) := by
  induction piece with
  | nil => cases hlines : splitLines rest <;> simp [hlines]
  | cons c piece ih =>
    rw [List.cons_append, splitLines_cons_of_inLine (h c (List.mem_cons_self ..)),
      ih fun x hx => h x (List.mem_cons_of_mem c hx)]
    cases splitLines rest with
    | nil => rfl
    | cons line lines => rfl

end Text

-- ---------------------------------------------------------------------------
-- The two agree
-- ---------------------------------------------------------------------------

/-- Reading from `p` with `rest` ahead has finished the lines `done` and has come as far
    as `current` on the next one. -/
structure Reached (p : Position) (read rest : List Char) (done : List (List Char))
    (current : List Char) : Prop where
  lines : Text.splitLines (read ++ rest) =
    done ++ (Text.splitLines rest).modifyHead (current ++ ·)
  line : (p.after read rest).line = p.line + done.length
  column : (p.after read rest).column = (if done = [] then p.column else 1) + current.length

namespace Reached

variable {p q : Position} {read more rest : List Char} {done : List (List Char)}
  {current : List Char}

theorem nil (p : Position) (rest : List Char) : Reached p [] rest [] [] where
  lines := by cases h : Text.splitLines rest <;> simp [h]
  line := by simp
  column := by simp

/-- A line end finishes a line of which nothing was read. -/
theorem lineEnd (h : Reached q more rest done current) (hcolumn : q.column = 1)
    (hline : q.line = p.line + 1) (hafter : p.after read rest = q.after more rest)
    (hlines : Text.splitLines (read ++ rest) = [] :: Text.splitLines (more ++ rest)) :
    Reached p read rest ([] :: done) current where
  lines := by rw [hlines, h.lines, List.cons_append]
  line := by
    rw [hafter, h.line, hline, List.length_cons]
    omega
  column := by
    rw [hafter, h.column, hcolumn]
    simp

/-- Any other character belongs to the first line. -/
theorem cons {c : Char} (hc : Text.isLineBreak c = false)
    (h : Reached (p.shift 1) more rest done current) :
    ∃ done current, Reached p (c :: more) rest done current := by
  have hlines := Text.splitLines_cons_of_inLine hc (more ++ rest)
  have hafter : p.after (c :: more) rest = (p.shift 1).after more rest := by
    rw [Position.after, Position.advance_of_inLine hc]
  cases done with
  | nil =>
    refine ⟨[], c :: current, ?_, ?_, ?_⟩
    · rw [List.cons_append, hlines, h.lines]
      cases Text.splitLines rest with
      | nil => rfl
      | cons line lines => rfl
    · rw [hafter, h.line]
      rfl
    · rw [hafter, h.column, if_pos rfl, if_pos rfl, Position.column_shift, List.length_cons]
      omega
  | cons first done =>
    refine ⟨(c :: first) :: done, current, ?_, ?_, ?_⟩
    · rw [List.cons_append, hlines, h.lines]
      rfl
    · rw [hafter, h.line]
      rfl
    · rw [hafter, h.column]
      simp

end Reached

/-- Counting lines and columns agrees with splitting into lines, wherever reading stops
    but between the CR and the LF of a pair. -/
theorem exists_reached (p : Position) {read rest : List Char} (h : ¬ SplitsPair read rest) :
    ∃ done current, Reached p read rest done current := by
  fun_induction Text.splitLines read generalizing p with
  | case1 => exact ⟨[], [], .nil p rest⟩
  | case2 more ih =>
    obtain ⟨done, current, hread⟩ := ih (p.shift 1).nextLine fun hs => h hs.cons.cons
    exact ⟨_, _, hread.lineEnd rfl rfl rfl (Text.splitLines_pair _)⟩
  | case3 more hpair ih =>
    obtain ⟨done, current, hread⟩ := ih p.nextLine fun hs => h hs.cons
    have hhead : (more ++ rest).head? ≠ some '\n' := by
      cases more with
      | nil => exact fun hrest => h ⟨rfl, hrest⟩
      | cons c more =>
        rintro ⟨⟩
        exact hpair more rfl
    refine ⟨_, _, hread.lineEnd rfl rfl ?_ (Text.splitLines_cr hhead)⟩
    rw [Position.after, Position.advance, if_pos (.inr ⟨rfl, hhead⟩)]
  | case4 more ih =>
    obtain ⟨done, current, hread⟩ := ih p.nextLine fun hs => h hs.cons
    exact ⟨_, _, hread.lineEnd rfl rfl rfl (Text.splitLines_lf _)⟩
  | case5 c more _ _ _ hnil => exact absurd hnil (Text.splitLines_ne_nil more)
  | case6 c more _ hcr hlf _ _ _ ih =>
    obtain ⟨done, current, hread⟩ := ih (p.shift 1) fun hs => h hs.cons
    exact hread.cons (by simpa [Text.isLineBreak] using ⟨hcr, hlf⟩)

-- ---------------------------------------------------------------------------
-- Ranges on one line
-- ---------------------------------------------------------------------------

/-- The range covers `piece`, which is part of one line of the text. -/
structure Range.Covering (text : List Char) (r : Range) (before piece behind : List Char) :
    Prop where
  text_eq : text = before ++ (piece ++ behind)
  ne_nil : piece ≠ []
  inLine : ∀ c ∈ piece, Text.isLineBreak c = false
  range_eq : r = .ofLength (Position.start.after before (piece ++ behind)) piece.length

namespace Range.Covering

variable {text before piece behind : List Char} {r : Range}

theorem not_splitsPair (h : r.Covering text before piece behind) (read : List Char) :
    ¬ SplitsPair read (piece ++ behind) := by
  rintro ⟨_, hhead⟩
  cases piece with
  | nil => exact h.ne_nil rfl
  | cons c piece =>
    cases hhead
    exact absurd (h.inLine '\n' (List.mem_cons_self ..)) (by decide)

theorem start_offset (h : r.Covering text before piece behind) :
    r.start.offset = before.length := by
  rw [h.range_eq, Range.ofLength, Position.offset_after]
  exact Int.zero_add _

theorem stop_eq (h : r.Covering text before piece behind) :
    r.stop = r.start.shift piece.length := by
  rw [h.range_eq, Range.ofLength]

/-- The range stands on the line and in the columns that its positions say. -/
theorem exists_line (h : r.Covering text before piece behind) :
    ∃ done left right more, Text.splitLines text = done ++ (left ++ piece ++ right) :: more ∧
      r.start.line = done.length + 1 ∧ r.start.column = left.length + 1 := by
  obtain ⟨done, left, hread⟩ := exists_reached .start (h.not_splitsPair before)
  obtain ⟨right, more, hbehind⟩ := List.exists_cons_of_ne_nil (Text.splitLines_ne_nil behind)
  refine ⟨done, left, right, more, ?_, ?_, ?_⟩
  · rw [h.text_eq, hread.lines, Text.splitLines_append_of_inLine h.inLine, hbehind]
    simp
  · rw [h.range_eq, Range.ofLength, hread.line]
    exact Int.add_comm ..
  · have hone : (if done = [] then Position.start.column else 1) = 1 := ite_self 1
    rw [h.range_eq, Range.ofLength, hread.column, hone]
    exact Int.add_comm ..

/-- From one range to another on its line there is a range of that line. -/
theorem join {before' piece' behind' : List Char} {r' : Range}
    (h : r.Covering text before piece behind) (h' : r'.Covering text before' piece' behind')
    (hle : r.start.offset ≤ r'.start.offset) (hline : r.start.line = r'.start.line) :
    ∃ between, Range.Covering text ⟨r.start, r'.stop⟩ before (between ++ piece') behind' := by
  have htext : before ++ (piece ++ behind) = before' ++ (piece' ++ behind') :=
    h.text_eq.symm.trans h'.text_eq
  obtain ⟨between, rfl⟩ : before <+: before' := by
    rw [h.start_offset, h'.start_offset] at hle
    exact List.prefix_of_prefix_length_le ⟨_, htext⟩ (List.prefix_append ..) (by omega)
  rw [List.append_assoc, List.append_cancel_left_eq] at htext
  have hstart : r'.start = r.start.after between (piece' ++ behind') := by
    rw [h'.range_eq, h.range_eq, Range.ofLength, Range.ofLength, Position.after_append, htext]
  have hbetween : ∀ c ∈ between, Text.isLineBreak c = false :=
    inLine_of_line_after (h'.not_splitsPair between) (by rw [← hstart, hline])
  refine ⟨between, ?_, ?_, ?_, ?_⟩
  · rw [h.text_eq, htext, List.append_assoc]
  · exact List.append_ne_nil_of_right_ne_nil between h'.ne_nil
  · intro c hc
    rcases List.mem_append.mp hc with hc | hc
    · exact hbetween c hc
    · exact h'.inLine c hc
  · rw [h'.stop_eq, hstart, Position.after_of_inLine hbetween, Position.shift_shift,
      List.length_append, Range.ofLength, h.range_eq, Range.ofLength, htext, List.append_assoc]

end Range.Covering

namespace Tiling

variable {p : Position} {cs : List Char} {spans : List Span}

/-- Reading leads to the start of each span. -/
theorem reached (h : Tiling p cs spans) : ∀ s ∈ spans, ∃ before behind,
    cs = before ++ (s.text.toList ++ behind) ∧
      s.range.start = p.after before (s.text.toList ++ behind) := by
  induction h with
  | done => simp
  | @blank p c rest spans _ _ ih =>
    intro s hs
    obtain ⟨before, behind, rfl, hstart⟩ := ih s hs
    exact ⟨c :: before, behind, rfl, hstart⟩
  | @piece p chars rest spans _ hline _ ih =>
    intro s hs
    rcases List.mem_cons.mp hs with rfl | hs
    · exact ⟨[], rest, by simp, rfl⟩
    · obtain ⟨before, behind, rfl, hstart⟩ := ih s hs
      refine ⟨chars ++ before, behind, by simp, ?_⟩
      rw [hstart, Position.after_append, Position.after_of_inLine hline]

/-- Each span of a document covers its text on one line. -/
theorem covering {text : List Char} (h : Tiling .start text spans) :
    ∀ s ∈ spans, ∃ before behind, s.range.Covering text before s.text.toList behind := by
  intro s hs
  obtain ⟨before, behind, htext, hstart⟩ := h.reached s hs
  refine ⟨before, behind, htext, h.text_ne_nil s hs, h.inLine s hs, ?_⟩
  rw [h.range_eq s hs, ← hstart, String.length_toList]

end Tiling

end AsmHighlight
