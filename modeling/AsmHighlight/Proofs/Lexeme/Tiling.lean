-- SUMMARY: The lexemes of a document tile it, each on one line and with only blanks between them.
import AsmHighlight.Lexeme.Scan
import Mathlib.Data.List.TakeWhile

/-!
# Tilings

Scanning cuts a document into pieces that stand on one line each and leaves
only blanks between them. `Tiling` says so along the scan, character by
character and with the position that the scan has reached; `Tiles` says it of
the whole document, by offsets. `Tiling.tiles` leads from the one to the other.

Both are about spans, which are all that a lexeme and its token share, so that
what holds of the lexemes carries over to the tokens.

The scan itself is opened once, by what it does at the end, at a blank and at a
word (`scanFrom_nil`, `scanFrom_blank`, `scanFrom_word`).
-/

namespace AsmHighlight

/-- A text and the place where it stands. -/
structure Span where
  text : String
  range : Range
  deriving DecidableEq, Repr

def Lexeme.span (l : Lexeme) : Span :=
  ⟨l.text, l.range⟩

/-- The characters of a document from one offset up to another. -/
def Text.slice (source : String) (start stop : Int) : String :=
  String.ofList ((source.toList.drop start.toNat).take (stop - start).toNat)

/-- The spans tile the document: every span is a non-empty piece of one line, they
    follow each other without overlap, and together they hold every character that
    is not blank. -/
structure Tiles (source : String) (spans : List Span) : Prop where
  inside : ∀ s ∈ spans, 0 ≤ s.range.start.offset ∧
    s.range.start.offset < s.range.stop.offset ∧ s.range.stop.offset ≤ source.length
  text_eq : ∀ s ∈ spans, s.text = Text.slice source s.range.start.offset s.range.stop.offset
  ordered : spans.Pairwise fun s t => s.range.stop.offset ≤ t.range.start.offset
  one_line : ∀ s ∈ spans, (∀ c ∈ s.text.toList, Text.isLineBreak c = false) ∧
    s.range.start.line = s.range.stop.line ∧
    s.range.stop.column - s.range.start.column = s.text.length
  blank_of_uncovered : ∀ (i : Nat) (c : Char), source.toList[i]? = some c →
    (∀ s ∈ spans, s.range.covers i = false) → Text.isBlank c = true
  covered_once : ∀ (i : Nat) (c : Char), source.toList[i]? = some c →
    Text.isBlank c = false → spans.countP (fun s => s.range.covers i) = 1

/-- No two spans start at the same place. -/
theorem Tiles.start_lt {source : String} {spans : List Span} (h : Tiles source spans) :
    spans.Pairwise fun s t => s.range.start.offset < t.range.start.offset := by
  refine List.Pairwise.imp_of_mem ?_ h.ordered
  intro s t hs _ hle
  exact Int.lt_of_lt_of_le (h.inside s hs).2.1 hle

-- ---------------------------------------------------------------------------
-- Positions
-- ---------------------------------------------------------------------------

namespace Position

@[simp] theorem offset_shift (p : Position) (n : Nat) : (p.shift n).offset = p.offset + n := rfl
@[simp] theorem column_shift (p : Position) (n : Nat) : (p.shift n).column = p.column + n := rfl

@[simp] theorem offset_advance (p : Position) (c : Char) (rest : List Char) :
    (p.advance c rest).offset = p.offset + 1 := by
  unfold advance
  split <;> rfl

theorem line_le_advance (p : Position) (c : Char) (rest : List Char) :
    p.line ≤ (p.advance c rest).line := by
  unfold advance
  split
  · simp only [nextLine]; omega
  · exact Int.le_refl _

end Position

-- ---------------------------------------------------------------------------
-- Pieces stay on their line
-- ---------------------------------------------------------------------------

namespace Lexeme

theorem stringBody_inLine (cs : List Char) :
    ∀ x ∈ (stringBody cs).chars, Text.isLineBreak x = false := by
  fun_induction stringBody cs with
  | case1 => simp
  | case2 => intro x hx; simp only [List.mem_singleton] at hx; subst hx; rfl
  | case3 => intro x hx; simp only [List.mem_singleton] at hx; subst hx; rfl
  | case4 c rest hc ih =>
    intro x hx
    simp only [StringBody.push, List.mem_cons] at hx
    rcases hx with rfl | rfl | hx
    · rfl
    · simpa using hc
    · exact ih x hx
  | case5 => intro x hx; simp only [List.mem_singleton] at hx; subst hx; rfl
  | case6 => simp
  | case7 c rest _ _ _ hc ih =>
    intro x hx
    simp only [StringBody.push, List.mem_cons] at hx
    rcases hx with rfl | hx
    · simpa using hc
    · exact ih x hx

theorem isLineBreak_of_not_isBlank {c : Char} (hc : Text.isBlank c = false) :
    Text.isLineBreak c = false := by
  cases h : Text.isLineBreak c with
  | false => rfl
  | true => rw [Text.isBlank_of_isLineBreak h] at hc; cases hc

theorem not_isBlank_of_isOrdinary {sigil : Option Char} {c : Char}
    (hc : isOrdinary sigil c = true) : Text.isBlank c = false := by
  simp only [isOrdinary, Bool.not_eq_true', Bool.or_eq_false_iff] at hc
  exact hc.1.1.1

/-- A lexeme holds no line break. -/
theorem pieceAt_inLine (sigil : Option Char) {c : Char} (hc : Text.isBlank c = false)
    (rest : List Char) : ∀ x ∈ (pieceAt sigil c rest).chars, Text.isLineBreak x = false := by
  have hfirst := isLineBreak_of_not_isBlank hc
  intro x hx
  unfold pieceAt at hx
  split at hx
  · rcases List.mem_cons.mp hx with rfl | hx
    · exact hfirst
    · simpa [inLine] using List.mem_takeWhile_imp hx
  · split at hx
    · simp only [stringPiece, List.mem_cons] at hx
      rcases hx with rfl | hx
      · rfl
      · exact stringBody_inLine rest x hx
    · split at hx
      · rw [List.mem_singleton.mp hx]; exact hfirst
      · rcases List.mem_cons.mp hx with rfl | hx
        · exact hfirst
        · exact isLineBreak_of_not_isBlank
            (not_isBlank_of_isOrdinary (List.mem_takeWhile_imp hx))

-- ---------------------------------------------------------------------------
-- Scanning a word
-- ---------------------------------------------------------------------------

theorem scanFrom_nil (sigil : Option Char) (p : Position) : scanFrom sigil p [] = [] := by
  unfold scanFrom
  rfl

theorem scanFrom_blank {sigil : Option Char} {p : Position} {c : Char} {rest : List Char}
    (hc : Text.isBlank c = true) :
    scanFrom sigil p (c :: rest) = scanFrom sigil (p.advance c rest) rest := by
  conv => lhs; unfold scanFrom
  exact if_pos hc

/-- A word goes on up to a character that ends it. -/
theorem scanFrom_word {sigil : Option Char} {p : Position} {c : Char} {word rest : List Char}
    (hall : ∀ x ∈ c :: word, isOrdinary sigil x = true)
    (hend : ∀ b ∈ rest.head?, isOrdinary sigil b = false) :
    scanFrom sigil p (c :: (word ++ rest)) =
      ⟨.word, String.ofList (c :: word), .ofLength p (word.length + 1), none⟩ ::
        scanFrom sigil (p.shift (word.length + 1)) rest := by
  have hc := hall c (List.mem_cons_self ..)
  have hword : ∀ x ∈ word, isOrdinary sigil x = true :=
    fun x hx => hall x (List.mem_cons_of_mem c hx)
  have hblank := not_isBlank_of_isOrdinary hc
  have hstop : rest.takeWhile (isOrdinary sigil) = [] ∧
      rest.dropWhile (isOrdinary sigil) = rest := by
    cases rest with
    | nil => exact ⟨rfl, rfl⟩
    | cons b more => simp [hend b rfl]
  simp only [isOrdinary, Bool.not_eq_true', Bool.or_eq_false_iff, beq_eq_false_iff_ne] at hc
  obtain ⟨⟨⟨_, hquote⟩, hsigil⟩, hseparator⟩ := hc
  have hpiece : pieceAt sigil c (word ++ rest) = ⟨.word, c :: word, none, rest⟩ := by
    simp [pieceAt, hsigil, hquote, hseparator, List.takeWhile_append_of_pos hword,
      List.dropWhile_append_of_pos hword, hstop]
  conv => lhs; unfold scanFrom
  simp only [hblank, Bool.false_eq_true, if_false, hpiece, ofPiece, List.length_cons]

theorem scanFrom_last_word {sigil : Option Char} {p : Position} {c : Char} {word : List Char}
    (hall : ∀ x ∈ c :: word, isOrdinary sigil x = true) :
    scanFrom sigil p (c :: word) =
      [⟨.word, String.ofList (c :: word), .ofLength p (word.length + 1), none⟩] := by
  have hscan := @scanFrom_word sigil p c word [] hall nofun
  rw [List.append_nil, scanFrom_nil] at hscan
  exact hscan

end Lexeme

-- ---------------------------------------------------------------------------
-- Tilings along the scan
-- ---------------------------------------------------------------------------

/-- The spans tile the characters ahead of a position: each character is a blank
    between spans or belongs to a span that starts at the position reached. -/
inductive Tiling : Position → List Char → List Span → Prop where
  | done (p : Position) : Tiling p [] []
  | blank {p : Position} {c : Char} {rest : List Char} {spans : List Span}
      (hc : Text.isBlank c = true) (h : Tiling (p.advance c rest) rest spans) :
      Tiling p (c :: rest) spans
  | piece {p : Position} {chars rest : List Char} {spans : List Span} (hne : chars ≠ [])
      (hline : ∀ c ∈ chars, Text.isLineBreak c = false)
      (h : Tiling (p.shift chars.length) rest spans) :
      Tiling p (chars ++ rest) (⟨String.ofList chars, .ofLength p chars.length⟩ :: spans)

/-- What is ahead of a position is tiled by its lexemes. -/
theorem Lexeme.scanFrom_tiling (sigil : Option Char) (p : Position) (cs : List Char) :
    Tiling p cs ((scanFrom sigil p cs).map span) := by
  fun_induction scanFrom sigil p cs with
  | case1 p => exact .done p
  | case2 p c rest hc ih => exact .blank hc ih
  | case3 p c rest hc piece ih =>
    have hc' : Text.isBlank c = false := by simpa using hc
    obtain ⟨more, hmore⟩ := pieceAt_chars_head sigil c rest
    have hne : piece.chars ≠ [] := by rw [hmore]; exact List.cons_ne_nil _ _
    rw [← pieceAt_chars_append_rest sigil c rest]
    exact .piece hne (pieceAt_inLine sigil hc' rest) ih

namespace Tiling

variable {p : Position} {cs : List Char} {spans : List Span}

/-- A span covers as many characters as its text has, from its start on. -/
theorem range_eq (h : Tiling p cs spans) :
    ∀ s ∈ spans, s.range = .ofLength s.range.start s.text.length := by
  induction h with
  | done => simp
  | blank _ _ ih => exact ih
  | piece _ _ _ ih =>
    intro s hs
    rcases List.mem_cons.mp hs with rfl | hs
    · simp [Range.ofLength]
    · exact ih s hs

/-- A span's text stands in the document at the span's offset. -/
theorem stands (h : Tiling p cs spans) :
    ∀ s ∈ spans, ∃ pre post, cs = pre ++ s.text.toList ++ post ∧
      s.range.start.offset = p.offset + pre.length := by
  induction h with
  | done => simp
  | @blank p c rest spans _ _ ih =>
    intro s hs
    obtain ⟨pre, post, rfl, hoff⟩ := ih s hs
    refine ⟨c :: pre, post, by simp, ?_⟩
    rw [hoff, Position.offset_advance, List.length_cons]
    omega
  | @piece p chars rest spans _ _ _ ih =>
    intro s hs
    rcases List.mem_cons.mp hs with rfl | hs
    · exact ⟨[], rest, by simp, by simp [Range.ofLength]⟩
    · obtain ⟨pre, post, rfl, hoff⟩ := ih s hs
      refine ⟨chars ++ pre, post, by simp, ?_⟩
      rw [hoff, Position.offset_shift, List.length_append]
      omega

theorem text_ne_nil (h : Tiling p cs spans) : ∀ s ∈ spans, s.text.toList ≠ [] := by
  induction h with
  | done => simp
  | blank _ _ ih => exact ih
  | piece hne _ _ ih =>
    intro s hs
    rcases List.mem_cons.mp hs with rfl | hs
    · simpa using hne
    · exact ih s hs

theorem inLine (h : Tiling p cs spans) :
    ∀ s ∈ spans, ∀ c ∈ s.text.toList, Text.isLineBreak c = false := by
  induction h with
  | done => simp
  | blank _ _ ih => exact ih
  | piece _ hline _ ih =>
    intro s hs
    rcases List.mem_cons.mp hs with rfl | hs
    · simpa using hline
    · exact ih s hs

/-- There are no more spans than characters. -/
theorem length_le (h : Tiling p cs spans) : spans.length ≤ cs.length := by
  induction h with
  | done => exact Nat.le_refl 0
  | blank _ _ ih => exact Nat.le_succ_of_le ih
  | @piece p chars rest spans hne _ _ ih =>
    have hpos := List.length_pos_iff.mpr hne
    rw [List.length_cons, List.length_append]
    omega

/-- No span starts before the position that the scan has reached. -/
theorem start_ge (h : Tiling p cs spans) :
    ∀ s ∈ spans, p.offset ≤ s.range.start.offset := by
  intro s hs
  obtain ⟨pre, _, _, hoff⟩ := h.stands s hs
  omega

/-- The spans follow each other without overlap. -/
theorem ordered (h : Tiling p cs spans) :
    spans.Pairwise fun s t => s.range.stop.offset ≤ t.range.start.offset := by
  induction h with
  | done => exact .nil
  | blank _ _ ih => exact ih
  | piece _ _ h ih => exact .cons h.start_ge ih

/-- No span starts on a line before the one that the scan has reached. -/
theorem line_ge (h : Tiling p cs spans) : ∀ s ∈ spans, p.line ≤ s.range.line := by
  induction h with
  | done => simp
  | blank _ _ ih =>
    intro s hs
    exact Int.le_trans (Position.line_le_advance _ _ _) (ih s hs)
  | piece _ _ _ ih =>
    intro s hs
    rcases List.mem_cons.mp hs with rfl | hs
    · exact Int.le_refl _
    · exact ih s hs

/-- The lines of the spans never go back. -/
theorem lines_sorted (h : Tiling p cs spans) :
    spans.Pairwise fun s t => s.range.line ≤ t.range.line := by
  induction h with
  | done => exact .nil
  | blank _ _ ih => exact ih
  | piece _ _ h ih => exact .cons h.line_ge ih

/-- Each character that is not blank is covered by exactly one span. -/
theorem countP_covers (h : Tiling p cs spans) :
    ∀ (i : Nat) (c : Char), cs[i]? = some c → Text.isBlank c = false →
      spans.countP (fun s => s.range.covers (p.offset + i)) = 1 := by
  induction h with
  | done => simp
  | @blank p c rest spans hc _ ih =>
    intro i d hd hblank
    cases i with
    | zero =>
      obtain rfl : c = d := by simpa using hd
      rw [hc] at hblank
      cases hblank
    | succ i =>
      have := ih i d (by simpa using hd) hblank
      rw [Position.offset_advance] at this
      rw [show p.offset + ((i + 1 : Nat) : Int) = p.offset + 1 + i by omega]
      exact this
  | @piece p chars rest spans _ _ h ih =>
    intro i d hd hblank
    by_cases hi : i < chars.length
    · -- The first span covers the character, and the others start behind it.
      have hrest : spans.countP (fun s => s.range.covers (p.offset + i)) = 0 := by
        rw [List.countP_eq_zero]
        intro s hs
        have := h.start_ge s hs
        simp only [Position.offset_shift] at this
        simp only [Range.covers, Bool.and_eq_true, decide_eq_true_eq]
        omega
      have hfirst : p.offset ≤ p.offset + i := by omega
      rw [List.countP_cons, hrest]
      simp [Range.covers, Range.ofLength, hi, hfirst]
    · have hd' : rest[i - chars.length]? = some d := by
        rw [← hd, List.getElem?_append_right (by omega)]
      have := ih (i - chars.length) d hd' hblank
      rw [Position.offset_shift,
        show p.offset + (chars.length : Int) + ((i - chars.length : Nat) : Int) = p.offset + i
          by omega] at this
      rw [List.countP_cons, this]
      simp [Range.covers, Range.ofLength, hi]

/-- The spans of a scan from the start of a document tile the document. -/
theorem tiles {source : String} (h : Tiling .start source.toList spans) :
    Tiles source spans where
  inside := by
    intro s hs
    obtain ⟨pre, post, hsource, hoff⟩ := h.stands s hs
    have hlen : source.length = pre.length + s.text.length + post.length := by
      rw [← String.length_toList, hsource]
      simp [Nat.add_assoc, String.length_toList]
    have hpos : 0 < s.text.length := by
      rw [← String.length_toList]
      exact List.length_pos_iff.mpr (h.text_ne_nil s hs)
    rw [h.range_eq s hs]
    simp only [Range.ofLength, Position.offset_shift, hoff, Position.start]
    omega
  text_eq := by
    intro s hs
    obtain ⟨pre, post, hsource, hoff⟩ := h.stands s hs
    have hstart : s.range.start.offset = pre.length := by simpa [Position.start] using hoff
    rw [h.range_eq s hs]
    simp only [Range.ofLength, Text.slice, Position.offset_shift, hstart, hsource,
      Int.toNat_natCast, List.append_assoc, List.drop_left]
    rw [show ((pre.length : Int) + s.text.length - pre.length).toNat = s.text.toList.length by
      rw [String.length_toList]; omega, List.take_left, String.ofList_toList]
  ordered := h.ordered
  one_line := by
    intro s hs
    rw [h.range_eq s hs]
    refine ⟨h.inLine s hs, rfl, ?_⟩
    simp only [Range.ofLength, Position.column_shift]
    omega
  blank_of_uncovered := by
    intro i c hc huncovered
    cases hblank : Text.isBlank c with
    | true => rfl
    | false =>
      have hone := h.countP_covers i c hc hblank
      have hzero : spans.countP (fun s => s.range.covers (Position.start.offset + i)) = 0 := by
        rw [List.countP_eq_zero]
        intro s hs
        simp [Position.start, huncovered s hs]
      omega
  covered_once := by
    intro i c hc hblank
    simpa [Position.start] using h.countP_covers i c hc hblank

end Tiling

/-- The lexemes of a document tile it. -/
theorem Lexeme.scan_tiling (sigil : Option Char) (source : String) :
    Tiling .start source.toList ((scan sigil source).map span) :=
  scanFrom_tiling sigil .start source.toList

theorem Lexeme.ne_newline_of_mem_scan {sigil : Option Char} {source : String} {l : Lexeme}
    (h : l ∈ scan sigil source) : ∀ c ∈ l.text.toList, c ≠ '\n' := by
  rintro c hc rfl
  have hbreak := (scan_tiling sigil source).inLine l.span (List.mem_map_of_mem h) '\n' hc
  cases hbreak

theorem Lexeme.scan_lines_sorted (sigil : Option Char) (source : String) :
    (scan sigil source).Pairwise fun l q => l.line ≤ q.line := by
  have hsorted := (scan_tiling sigil source).lines_sorted
  rw [List.pairwise_map] at hsorted
  exact hsorted

end AsmHighlight
