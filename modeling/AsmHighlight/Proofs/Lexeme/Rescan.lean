-- SUMMARY: A lexeme is found again wherever what follows it ends it.
import AsmHighlight.Proofs.Relocation
import AsmHighlight.Proofs.Source.Reading

/-!
# Scanning again

How far a lexeme goes is decided by its own characters and by the one character
behind it, if there is one: a comment or an unclosed string goes to the line
break, a word to a character that cannot be part of it, and a string or comma
ends by itself (`Kind.Stops`). So a lexeme that is put before other characters
is found again if they stop it (`pieceAt_eq_of_stops`).

A line break stops every lexeme. Hence a text can be cut in front of any line
break, and the two parts scanned on their own (`scanFrom_append`), from where
the reading of the first part has led. The place where a scan starts does not
matter otherwise (`scanFrom_move`).
-/

namespace AsmHighlight.Lexeme

/-- The character ends lexemes of this kind. -/
def Kind.stopsAt (sigil : Option Char) : Kind → Char → Bool
  | .comment, c | .invalid, c => Text.isLineBreak c
  | .word, c => !isOrdinary sigil c
  | .string, _ | .punctuation, _ => true

/-- A lexeme of this kind does not go on into the characters. -/
def Kind.Stops (sigil : Option Char) (kind : Kind) (tail : List Char) : Prop :=
  ∀ c ∈ tail.head?, kind.stopsAt sigil c = true

/-- The characters are at a line break, or there are none. -/
def AtBreak (tail : List Char) : Prop :=
  ∀ c ∈ tail.head?, Text.isLineBreak c = true

theorem isOrdinary_of_isBlank {sigil : Option Char} {c : Char} (h : Text.isBlank c = true) :
    isOrdinary sigil c = false := by
  simp [isOrdinary, h]

/-- A line break ends a lexeme of any kind. -/
theorem AtBreak.stops {tail : List Char} (h : AtBreak tail) (sigil : Option Char) (kind : Kind) :
    kind.Stops sigil tail := by
  intro c hc
  have hbreak := h c hc
  cases kind with
  | comment | invalid => exact hbreak
  | word => simp [Kind.stopsAt, isOrdinary_of_isBlank (Text.isBlank_of_isLineBreak hbreak)]
  | string | punctuation => rfl

/-- What stops a lexeme still does when a line break comes behind it. -/
theorem Kind.Stops.append {sigil : Option Char} {kind : Kind} {rest tail : List Char}
    (h : kind.Stops sigil rest) (htail : AtBreak tail) : kind.Stops sigil (rest ++ tail) := by
  cases rest with
  | nil => exact htail.stops sigil kind
  | cons c rest => exact h

-- ---------------------------------------------------------------------------
-- One lexeme
-- ---------------------------------------------------------------------------

theorem stringBody_cons {c : Char} (hc : c ≠ '\\') (rest : List Char) :
    stringBody (c :: rest) =
      if c = quote then ⟨[c], true, rest⟩
      else if Text.isLineBreak c then ⟨[], false, c :: rest⟩
      else (stringBody rest).push c := by
  rw [stringBody]
  · exact fun h _ => hc h
  · exact fun _ _ h _ => hc h

theorem stringBody_of_atBreak {tail : List Char} (h : AtBreak tail) :
    stringBody tail = ⟨[], false, tail⟩ := by
  cases tail with
  | nil => rfl
  | cons c rest =>
    have hbreak := h c rfl
    have hne (d : Char) (hd : Text.isLineBreak d = false) : c ≠ d := by
      rintro rfl
      rw [hbreak] at hd
      cases hd
    rw [stringBody_cons (hne _ rfl), if_neg (hne _ rfl), if_pos hbreak]

theorem stringBody_backslash_of_atBreak {tail : List Char} (h : AtBreak tail) :
    stringBody ('\\' :: tail) = ⟨['\\'], false, tail⟩ := by
  cases tail with
  | nil => rfl
  | cons c rest => rw [stringBody, if_pos (h c rfl)]

/-- A string that is not closed goes to the end of its line. -/
theorem stringBody_atBreak {cs : List Char} (h : (stringBody cs).closed = false) :
    AtBreak (stringBody cs).rest := by
  fun_induction stringBody cs with
  | case1 | case2 =>
    intro c hc
    cases hc
  | case3 c rest hc | case6 c rest _ _ _ hc =>
    rintro _ ⟨⟩
    exact hc
  | case4 c rest _ ih | case7 c rest _ _ _ _ ih => exact ih h
  | case5 => cases h

/-- A string is read again before any characters that it does not go on into. -/
theorem stringBody_append {cs tail : List Char}
    (h : (stringBody cs).closed = false → AtBreak tail) :
    stringBody ((stringBody cs).chars ++ tail) = { stringBody cs with rest := tail } := by
  fun_induction stringBody cs with
  | case1 | case6 => exact stringBody_of_atBreak (h rfl)
  | case2 | case3 => exact stringBody_backslash_of_atBreak (h rfl)
  | case4 c rest hc ih =>
    simp only [StringBody.push, List.cons_append] at h ⊢
    rw [stringBody, if_neg hc, ih h]
    rfl
  | case5 rest =>
    rw [List.singleton_append, stringBody_cons (by decide), if_pos rfl]
  | case7 c rest hlast hescape hquote hc ih =>
    have hne : c ≠ '\\' := by
      rintro rfl
      cases rest with
      | nil => exact hlast rfl rfl
      | cons d rest => exact hescape d rest rfl rfl
    simp only [StringBody.push, List.cons_append] at h ⊢
    rw [stringBody_cons hne, if_neg hquote, if_neg hc, ih h]
    rfl

theorem takeWhile_append_of_head {p : Char → Bool} {front tail : List Char}
    (hfront : ∀ c ∈ front, p c = true) (htail : ∀ c ∈ tail.head?, p c = false) :
    (front ++ tail).takeWhile p = front ∧ (front ++ tail).dropWhile p = tail := by
  rw [List.takeWhile_append_of_pos hfront, List.dropWhile_append_of_pos hfront]
  cases tail with
  | nil => simp
  | cons c tail => simp [htail c rfl]

theorem not_of_mem_head?_dropWhile {p : Char → Bool} {cs : List Char} {c : Char}
    (h : c ∈ (cs.dropWhile p).head?) : p c = false := by
  have hnot := List.head?_dropWhile_not p cs
  rw [h] at hnot
  exact hnot

/-- What remains after a lexeme stops it. -/
theorem pieceAt_stops (sigil : Option Char) (c : Char) (rest : List Char) :
    (pieceAt sigil c rest).kind.Stops sigil (pieceAt sigil c rest).rest := by
  unfold pieceAt
  split
  next =>
    intro b hb
    simpa [inLine, Kind.stopsAt] using not_of_mem_head?_dropWhile hb
  next =>
    split
    next =>
      simp only [stringPiece]
      cases hclosed : (stringBody rest).closed with
      | true => exact fun _ _ => rfl
      | false => exact stringBody_atBreak hclosed
    next =>
      split
      next => exact fun _ _ => rfl
      next =>
        intro b hb
        simpa [Kind.stopsAt] using not_of_mem_head?_dropWhile hb

/-- A lexeme is found again before any characters that stop it. -/
theorem pieceAt_eq_of_stops {sigil : Option Char} {c : Char} {rest tail : List Char}
    (h : (pieceAt sigil c rest).kind.Stops sigil tail) :
    pieceAt sigil c ((pieceAt sigil c rest).chars.tail ++ tail) =
      { pieceAt sigil c rest with rest := tail } := by
  by_cases hsigil : isSigil sigil c = true
  · have hpiece (rest : List Char) : pieceAt sigil c rest =
        ⟨.comment, c :: rest.takeWhile inLine, none, rest.dropWhile inLine⟩ := by
      rw [pieceAt, if_pos hsigil]
    rw [hpiece rest] at h ⊢
    have hstop : ∀ d ∈ tail.head?, inLine d = false :=
      fun d hd => by simpa [inLine, Kind.stopsAt] using h d hd
    obtain ⟨htake, hdrop⟩ := takeWhile_append_of_head (fun d => List.mem_takeWhile_imp) hstop
    rw [List.tail_cons, hpiece, htake, hdrop]
  by_cases hquote : c = quote
  · have hpiece (rest : List Char) : pieceAt sigil c rest = stringPiece (stringBody rest) := by
      rw [pieceAt, if_neg hsigil, if_pos hquote]
    rw [hpiece rest] at h ⊢
    have hclosed : (stringBody rest).closed = false → AtBreak tail := by
      intro hclosed
      simp only [stringPiece, hclosed] at h
      exact h
    rw [stringPiece, List.tail_cons, hpiece, stringBody_append hclosed]
    rfl
  by_cases hseparator : c = separator
  · have hpiece (rest : List Char) : pieceAt sigil c rest = ⟨.punctuation, [c], none, rest⟩ := by
      rw [pieceAt, if_neg hsigil, if_neg hquote, if_pos hseparator]
    rw [hpiece rest, hpiece]
    rfl
  · have hpiece (rest : List Char) : pieceAt sigil c rest =
        ⟨.word, c :: rest.takeWhile (isOrdinary sigil), none, rest.dropWhile (isOrdinary sigil)⟩ := by
      rw [pieceAt, if_neg hsigil, if_neg hquote, if_neg hseparator]
    rw [hpiece rest] at h ⊢
    have hstop : ∀ d ∈ tail.head?, isOrdinary sigil d = false :=
      fun d hd => by simpa [Kind.stopsAt] using h d hd
    obtain ⟨htake, hdrop⟩ := takeWhile_append_of_head (fun d => List.mem_takeWhile_imp) hstop
    rw [List.tail_cons, hpiece, htake, hdrop]

/-- A lexeme is found again when a line break comes behind what followed it. -/
theorem pieceAt_append (sigil : Option Char) (c : Char) (rest : List Char) {tail : List Char}
    (htail : AtBreak tail) :
    pieceAt sigil c (rest ++ tail) =
      { pieceAt sigil c rest with rest := (pieceAt sigil c rest).rest ++ tail } := by
  have hrest : rest = (pieceAt sigil c rest).chars.tail ++ (pieceAt sigil c rest).rest := by
    obtain ⟨more, hmore⟩ := pieceAt_chars_head sigil c rest
    have happend := pieceAt_chars_append_rest sigil c rest
    rw [hmore] at happend ⊢
    exact (List.cons.inj happend).2.symm
  rw [← pieceAt_eq_of_stops ((pieceAt_stops sigil c rest).append htail), ← List.append_assoc,
    ← hrest]

-- ---------------------------------------------------------------------------
-- Whole texts
-- ---------------------------------------------------------------------------

theorem scanFrom_piece {sigil : Option Char} {p : Position} {c : Char} {rest : List Char}
    (hc : Text.isBlank c = false) :
    scanFrom sigil p (c :: rest) = ofPiece p (pieceAt sigil c rest) ::
      scanFrom sigil (p.shift (pieceAt sigil c rest).chars.length) (pieceAt sigil c rest).rest := by
  conv => lhs; unfold scanFrom
  simp only [hc, Bool.false_eq_true, if_false]

theorem scanFrom_blanks {sigil : Option Char} {p : Position} {blanks rest : List Char}
    (h : ∀ c ∈ blanks, Text.isBlank c = true) :
    scanFrom sigil p (blanks ++ rest) = scanFrom sigil (p.after blanks rest) rest := by
  induction blanks generalizing p with
  | nil => rfl
  | cons c blanks ih =>
    rw [List.cons_append, scanFrom_blank (h c (List.mem_cons_self ..)),
      ih fun d hd => h d (List.mem_cons_of_mem c hd)]
    rfl

/-- A text that is cut in front of a line break is scanned in two parts. -/
theorem scanFrom_append (sigil : Option Char) (p : Position) (cs : List Char) {tail : List Char}
    (htail : AtBreak tail) :
    scanFrom sigil p (cs ++ tail) =
      scanFrom sigil p cs ++ scanFrom sigil (p.after cs tail) tail := by
  fun_induction scanFrom sigil p cs with
  | case1 p => rfl
  | case2 p c rest hc ih =>
    rw [List.cons_append, scanFrom_blank hc]
    cases rest with
    | nil => rw [List.nil_append, scanFrom_nil, List.nil_append]; rfl
    | cons d rest => exact ih
  | case3 p c rest hc piece ih =>
    have hblank : Text.isBlank c = false := by simpa using hc
    have hafter : p.after (c :: rest) tail = (p.shift piece.chars.length).after piece.rest tail := by
      rw [← pieceAt_chars_append_rest sigil c rest, Position.after_append,
        Position.after_of_inLine (pieceAt_inLine sigil hblank rest)]
    rw [List.cons_append, scanFrom_piece hblank, pieceAt_append sigil c rest htail, hafter,
      List.cons_append]
    exact congrArg (List.cons _) ih

/-- No lexeme stands below the line to which reading leads. -/
theorem line_le_after_of_mem_scanFrom {sigil : Option Char} {p : Position} {cs : List Char}
    {l : Lexeme} (h : l ∈ scanFrom sigil p cs) (tail : List Char) :
    l.line ≤ (p.after cs tail).line := by
  have htiling := scanFrom_tiling sigil p cs
  have hspan : l.span ∈ (scanFrom sigil p cs).map span := List.mem_map_of_mem h
  obtain ⟨before, behind, rfl, hstart⟩ := htiling.reached l.span hspan
  have hhead : (l.span.text.toList ++ behind).head? =
      (l.span.text.toList ++ behind ++ tail).head? := by
    obtain ⟨c, more, htext⟩ := List.exists_cons_of_ne_nil (htiling.text_ne_nil l.span hspan)
    rw [htext]
    rfl
  have hline : l.line = (p.after before (l.span.text.toList ++ behind ++ tail)).line := by
    rw [← Position.after_congr (by rw [hhead]), ← hstart]
    rfl
  rw [hline, Position.after_append]
  exact Position.line_le_after ..

/-- A scan that starts elsewhere finds the same lexemes elsewhere. -/
theorem scanFrom_move (sigil : Option Char) (lines chars : Int) (p : Position) (cs : List Char) :
    scanFrom sigil ((Relocation.move lines chars).start p) cs =
      (scanFrom sigil p cs).map (relocate (.move lines chars)) := by
  have hshift (p : Position) (n : Nat) : ((Relocation.move lines chars).start p).shift n =
      (Relocation.move lines chars).start (p.shift n) := by
    simp only [Relocation.move, Position.shift, Int.add_right_comm]
  have hadvance (p : Position) (c : Char) (rest : List Char) :
      ((Relocation.move lines chars).start p).advance c rest =
        (Relocation.move lines chars).start (p.advance c rest) := by
    unfold Position.advance
    split
    next => simp only [Relocation.move, Position.nextLine, Int.add_right_comm]
    next => exact hshift p 1
  fun_induction scanFrom sigil p cs with
  | case1 p => exact scanFrom_nil ..
  | case2 p c rest hc ih => rw [scanFrom_blank hc, hadvance, ih]
  | case3 p c rest hc piece ih =>
    rw [scanFrom_piece (by simpa using hc), hshift, ih, List.map_cons]
    refine congrArg (· :: _) ?_
    simp only [ofPiece, Range.ofLength, hshift]
    rfl

end AsmHighlight.Lexeme
