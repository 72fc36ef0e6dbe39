-- SUMMARY: The lexemes of a document stand where they stand in any ASCII case of its letters.
import AsmHighlight.Proofs.Lexeme.Rescan
import AsmHighlight.Proofs.Text.Recased

/-!
# Scanning recased documents

Scanning asks of a character whether it is blank, ends a line, or is one of a few
that have a meaning of their own. A change of characters that keeps the answers
(`KeepsMarks`) therefore changes the texts of the lexemes and nothing else
(`scanFrom_map`).

Writing letters small is such a change, if the comment sigil is none of them. The
sigil may be a letter, though, and then only one of its two forms starts a
comment. `foldCase` writes all letters small but these two. So documents that differ
in the case of letters, none of which is the sigil, are folded to the same
document, and have the same lexemes up to case (`forall₂_recased_scan`).
-/

namespace AsmHighlight

/-- Lists with the same image agree place by place. -/
theorem forall₂_of_map_eq {α β : Type} {f : α → β} {items items' : List α}
    (h : items'.map f = items.map f) : List.Forall₂ (fun a b => f b = f a) items items' := by
  have heq : List.Forall₂ (fun x y => y = x) (items.map f) (items'.map f) := by
    rw [h]
    exact List.forall₂_same.mpr fun _ _ => rfl
  exact List.forall₂_map_left_iff.mp (List.forall₂_map_right_iff.mp heq)

namespace Lexeme

/-- The characters that scanning looks for, other than blanks and the sigil. -/
def marks : List Char :=
  [quote, separator, '\\', '\r', '\n']

/-- The change of characters makes no difference to where a lexeme begins or ends. -/
structure KeepsMarks (sigil : Option Char) (f : Char → Char) : Prop where
  isBlank : ∀ c, Text.isBlank (f c) = Text.isBlank c
  isSigil : ∀ c, isSigil sigil (f c) = isSigil sigil c
  eq_iff : ∀ d ∈ marks, ∀ c, f c = d ↔ c = d

def StringBody.map (f : Char → Char) (body : StringBody) : StringBody :=
  ⟨body.chars.map f, body.closed, body.rest.map f⟩

def Piece.map (f : Char → Char) (piece : Piece) : Piece :=
  { piece with chars := piece.chars.map f, rest := piece.rest.map f }

/-- The lexeme with other characters in its text. -/
def mapText (f : Char → Char) (l : Lexeme) : Lexeme :=
  { l with text := l.text.map f }

namespace KeepsMarks

variable {sigil : Option Char} {f : Char → Char} (hf : KeepsMarks sigil f)

include hf

theorem apply_mark {d : Char} (hd : d ∈ marks) : f d = d :=
  (hf.eq_iff d hd d).mpr rfl

theorem isLineBreak (c : Char) : Text.isLineBreak (f c) = Text.isLineBreak c := by
  rw [Bool.eq_iff_iff]
  simp only [Text.isLineBreak, Bool.or_eq_true, beq_iff_eq, hf.eq_iff '\r' (by decide),
    hf.eq_iff '\n' (by decide)]

theorem isOrdinary (c : Char) : isOrdinary sigil (f c) = isOrdinary sigil c := by
  have hquote : (f c == quote) = (c == quote) := by
    rw [Bool.eq_iff_iff, beq_iff_eq, beq_iff_eq, hf.eq_iff quote (by decide)]
  have hseparator : (f c == separator) = (c == separator) := by
    rw [Bool.eq_iff_iff, beq_iff_eq, beq_iff_eq, hf.eq_iff separator (by decide)]
  rw [Lexeme.isOrdinary, Lexeme.isOrdinary, hf.isBlank, hf.isSigil, hquote, hseparator]

theorem advance_map (p : Position) (c : Char) (rest : List Char) :
    p.advance (f c) (rest.map f) = p.advance c rest := by
  have hhead : (rest.map f).head? = some '\n' ↔ rest.head? = some '\n' := by
    cases rest with
    | nil => rfl
    | cons d rest => simpa using hf.eq_iff '\n' (by decide) d
  simp only [Position.advance, ne_eq, hhead, hf.eq_iff '\n' (by decide), hf.eq_iff '\r' (by decide)]

theorem stringBody_map (cs : List Char) : stringBody (cs.map f) = (stringBody cs).map f := by
  have hbackslash : f '\\' = '\\' := hf.apply_mark (by decide)
  fun_induction stringBody cs with
  | case1 => rfl
  | case2 => simp [hbackslash, stringBody, StringBody.map]
  | case3 c rest hc =>
    rw [List.map_cons, List.map_cons, hbackslash, stringBody, if_pos (by rwa [hf.isLineBreak])]
    simp [StringBody.map, hbackslash]
  | case4 c rest hc ih =>
    rw [List.map_cons, List.map_cons, hbackslash, stringBody, if_neg (by rwa [hf.isLineBreak]), ih]
    simp [StringBody.map, StringBody.push, hbackslash]
  | case5 rest =>
    have hquote : f quote = quote := hf.apply_mark (by decide)
    rw [List.map_cons, hquote, stringBody_cons (by decide), if_pos rfl]
    simp [StringBody.map, hquote]
  | case6 c rest hlast hescape hquote hc =>
    have hne : f c ≠ '\\' := by
      rw [ne_eq, hf.eq_iff '\\' (by decide)]
      rintro rfl
      cases hc
    rw [List.map_cons, stringBody_cons hne, if_neg (by rwa [hf.eq_iff quote (by decide)]),
      if_pos (by rwa [hf.isLineBreak])]
    rfl
  | case7 c rest hlast hescape hquote hc ih =>
    have hne : f c ≠ '\\' := by
      rw [ne_eq, hf.eq_iff '\\' (by decide)]
      rintro rfl
      cases rest with
      | nil => exact hlast rfl rfl
      | cons d rest => exact hescape d rest rfl rfl
    rw [List.map_cons, stringBody_cons hne, if_neg (by rwa [hf.eq_iff quote (by decide)]),
      if_neg (by rwa [hf.isLineBreak]), ih]
    rfl

theorem pieceAt_map (c : Char) (rest : List Char) :
    pieceAt sigil (f c) (rest.map f) = (pieceAt sigil c rest).map f := by
  have hinLine : inLine ∘ f = inLine := funext fun d => by
    rw [Function.comp_apply, inLine, inLine, hf.isLineBreak]
  have hordinary : Lexeme.isOrdinary sigil ∘ f = Lexeme.isOrdinary sigil := funext hf.isOrdinary
  have hquote : f quote = quote := hf.apply_mark (by decide)
  rw [pieceAt, pieceAt, hf.isSigil]
  split
  next =>
    rw [Piece.map, List.takeWhile_map, List.dropWhile_map, hinLine]
    rfl
  next =>
    by_cases hc : c = quote
    · rw [if_pos hc, if_pos ((hf.eq_iff quote (by decide) c).mpr hc), hf.stringBody_map]
      simp only [Piece.map, stringPiece, StringBody.map, List.map_cons, hquote]
      rfl
    rw [if_neg hc, if_neg (mt (hf.eq_iff quote (by decide) c).mp hc)]
    by_cases hc' : c = separator
    · rw [if_pos hc', if_pos ((hf.eq_iff separator (by decide) c).mpr hc')]
      rfl
    · rw [if_neg hc', if_neg (mt (hf.eq_iff separator (by decide) c).mp hc'), Piece.map,
        List.takeWhile_map, List.dropWhile_map, hordinary]
      rfl

/-- The changed characters have the lexemes of the characters, with changed texts. -/
theorem scanFrom_map (p : Position) (cs : List Char) :
    scanFrom sigil p (cs.map f) = (scanFrom sigil p cs).map (mapText f) := by
  fun_induction scanFrom sigil p cs with
  | case1 p => rw [List.map_nil, List.map_nil, scanFrom_nil]
  | case2 p c rest hc ih =>
    rw [List.map_cons, scanFrom_blank (by rwa [hf.isBlank]), hf.advance_map, ih]
  | case3 p c rest hc piece ih =>
    have hblank : Text.isBlank (f c) = false := by simpa [hf.isBlank] using hc
    have hlength : (piece.map f).chars.length = piece.chars.length := List.length_map ..
    rw [List.map_cons, scanFrom_piece hblank, hf.pieceAt_map, hlength, List.map_cons]
    refine congrArg₂ List.cons ?_ ih
    have htext : String.ofList (piece.chars.map f) = (String.ofList piece.chars).map f := by
      rw [← String.toList_inj, String.toList_map, String.toList_ofList, String.toList_ofList]
    rw [ofPiece, hlength]
    exact congrArg (fun text => Lexeme.mk _ text _ _) htext

end KeepsMarks

end Lexeme

-- ---------------------------------------------------------------------------
-- The case of letters
-- ---------------------------------------------------------------------------

/-- The character in small, unless it is a form of the sigil. -/
def Text.foldCase (sigil c : Char) : Char :=
  if c.toLower = sigil.toLower then c else c.toLower

namespace Text

variable {sigil : Char}

theorem toLower_toLower (c : Char) : c.toLower.toLower = c.toLower :=
  apply_toLower (by decide) c

/-- Of the two forms of a letter one is a capital and the other is not. -/
theorem eq_of_toLower_eq {c d : Char} (h : c.toLower = d.toLower) (hupper : c.isUpper = d.isUpper) :
    c = d := by
  have hback (c : Char) (hc : c.isUpper = true) : c.toLower.toUpper = c :=
    forall_ascii (P := fun c => c.isUpper = true → c.toLower.toUpper = c) (by decide)
      (toNat_lt_of_isUpper hc) hc
  cases hc : c.isUpper with
  | true => rw [← hback c hc, h, hback d (hupper.symm.trans hc)]
  | false =>
    have hd : d.isUpper = false := hupper.symm.trans hc
    rwa [toLower_eq_self (by simp [hc]), toLower_eq_self (by simp [hd])] at h

theorem foldCase_eq_of_toLower_eq {c c' : Char} (h : c'.toLower = c.toLower) (hc : c ≠ sigil)
    (hc' : c' ≠ sigil) : foldCase sigil c' = foldCase sigil c := by
  unfold foldCase
  rw [h]
  split
  next hform =>
    -- Both are a form of the sigil and not the sigil, so both are its other form.
    refine eq_of_toLower_eq h ?_
    have hupper : c.isUpper ≠ sigil.isUpper := fun heq => hc (eq_of_toLower_eq hform heq)
    have hupper' : c'.isUpper ≠ sigil.isUpper :=
      fun heq => hc' (eq_of_toLower_eq (h.trans hform) heq)
    rw [Bool.eq_not.mpr hupper, Bool.eq_not.mpr hupper']
  next => rfl

theorem toLower_foldCase (c : Char) : (foldCase sigil c).toLower = c.toLower := by
  unfold foldCase
  split
  next => rfl
  next => exact toLower_toLower c

theorem toLower_map_foldCase (s : String) : (s.map (foldCase sigil)).toLower = s.toLower := by
  rw [← String.toList_inj, toList_toLower, toList_toLower, String.toList_map, List.map_map]
  exact List.map_congr_left fun c _ => toLower_foldCase c

end Text

namespace Lexeme

theorem keepsMarks_foldCase (sigil : Char) : KeepsMarks (some sigil) (Text.foldCase sigil) where
  isBlank c := by
    unfold Text.foldCase
    split
    next => rfl
    next => exact Text.apply_toLower (by decide) c
  isSigil c := by
    unfold Text.foldCase
    split
    next => rfl
    next hform =>
      have hne : sigil ≠ c := fun heq => hform (by rw [heq])
      have hne' : sigil ≠ c.toLower := fun heq => hform (by rw [heq, Text.toLower_toLower])
      simp [Lexeme.isSigil, hne, hne']
  eq_iff d hd c := by
    unfold Text.foldCase
    split
    next => rfl
    next =>
      have hmarks : marks.all (fun d => !d.isAlpha) = true := by decide
      exact Text.toLower_eq_iff (by simpa using List.all_eq_true.mp hmarks d hd)

/-- The lexemes differ in the ASCII case of their letters only. -/
structure Recased (l l' : Lexeme) : Prop where
  kind : l'.kind = l.kind
  range : l'.range = l.range
  error : l'.error = l.error
  toLower_text : l'.text.toLower = l.text.toLower

/-- Documents that are folded to the same have the same lexemes up to case. -/
theorem forall₂_recased_scan {sigil : Char} {source source' : String}
    (h : source'.toList.map (Text.foldCase sigil) = source.toList.map (Text.foldCase sigil)) :
    List.Forall₂ Recased (scan (some sigil) source) (scan (some sigil) source') := by
  have hf := keepsMarks_foldCase sigil
  have hmap : (scan (some sigil) source').map (mapText (Text.foldCase sigil)) =
      (scan (some sigil) source).map (mapText (Text.foldCase sigil)) := by
    rw [scan, scan, ← hf.scanFrom_map, ← hf.scanFrom_map, h]
  refine (forall₂_of_map_eq hmap).imp fun l l' hl => ?_
  simp only [mapText, Lexeme.mk.injEq] at hl
  obtain ⟨hkind, htext, hrange, herror⟩ := hl
  refine ⟨hkind, hrange, herror, ?_⟩
  rw [← Text.toLower_map_foldCase, htext, Text.toLower_map_foldCase]

end Lexeme

end AsmHighlight
