-- SUMMARY: The forms of lexemes, and the one way in which a document is made of them.
import AsmHighlight.Proofs.Lexeme.Rescan
import AsmHighlight.Settings

/-!
# The lexical grammar

A lexeme has one of five forms, and how far it goes is part of the form
(`Form`): a comment or an unclosed string goes to the end of its line, a string
to its closing quote, and a word as far as it can in both directions. The first
character tells which forms are possible (`kindsAt`).

A document is blanks and lexemes in turn (`Lexed`). It can be read so in exactly
one way, and scanning finds it (`scan_lexed_iff`). One direction says that each
form is what the scanner takes (`Form.pieceAt_eq`), the other that what it takes
has a form (`form_pieceAt`).
-/

namespace AsmHighlight.Lexeme

-- ---------------------------------------------------------------------------
-- Forms
-- ---------------------------------------------------------------------------

/-- What can stand between two quotes: characters other than a quote, a backslash or a
    line break, and backslashes each with any character but a line break. -/
inductive Units : List Char → Prop where
  | nil : Units []
  | plain {c : Char} {cs : List Char} (hquote : c ≠ quote) (hescape : c ≠ '\\')
      (hline : Text.isLineBreak c = false) (h : Units cs) : Units (c :: cs)
  | escape {c : Char} {cs : List Char} (hline : Text.isLineBreak c = false) (h : Units cs) :
      Units ('\\' :: c :: cs)

/-- A string between its quotes. -/
def IsQuoted (cs : List Char) : Prop :=
  ∃ body, Units body ∧ cs = quote :: (body ++ [quote])

/-- An opening quote, what can stand behind it, and one more backslash or none. -/
def IsUnclosed (cs : List Char) : Prop :=
  ∃ body, Units body ∧ (cs = quote :: body ∨ cs = quote :: (body ++ ['\\']))

/-- The character can be part of a word. -/
structure Ordinary (sigil c : Char) : Prop where
  not_blank : Text.isBlank c = false
  ne_quote : c ≠ quote
  ne_separator : c ≠ separator
  ne_sigil : c ≠ sigil

/-- The characters are a lexeme of this kind where `behind` comes before them and `ahead`
    after them. -/
inductive Form (sigil : Char) (behind : Option Char) (ahead : List Char) :
    Kind → List Char → Prop where
  | comment {more : List Char} (hline : ∀ c ∈ more, Text.isLineBreak c = false)
      (hend : AtBreak ahead) : Form sigil behind ahead .comment (sigil :: more)
  | punctuation : Form sigil behind ahead .punctuation [separator]
  | string {cs : List Char} (h : IsQuoted cs) : Form sigil behind ahead .string cs
  /-- An unclosed string goes to the end of its line and does not begin with a closed one. -/
  | invalid {cs : List Char} (h : IsUnclosed cs) (hend : AtBreak ahead)
      (hnone : ∀ front, front <+: cs → ¬ IsQuoted front) : Form sigil behind ahead .invalid cs
  | word {cs : List Char} (hne : cs ≠ []) (hall : ∀ c ∈ cs, Ordinary sigil c)
      (hend : ∀ c ∈ ahead.head?, ¬ Ordinary sigil c)
      (hstart : ∀ c ∈ behind, ¬ Ordinary sigil c) : Form sigil behind ahead .word cs

/-- What is wrong with a lexeme of this kind. -/
def Kind.error? : Kind → Option String
  | .invalid => some unterminated
  | .word | .string | .comment | .punctuation => none

/-- The kinds of the lexemes that begin with a character. -/
def kindsAt (sigil c : Char) : List Kind :=
  if c = sigil then [.comment]
  else if c = quote then [.string, .invalid]
  else if c = separator then [.punctuation]
  else [.word]

/-- The characters ahead of a position are blanks and these lexemes in turn; `behind` is the
    character before them. -/
inductive Lexed (sigil : Char) : Position → Option Char → List Char → List Lexeme → Prop where
  | blanks {p : Position} {behind : Option Char} {blanks : List Char}
      (hblank : ∀ c ∈ blanks, Text.isBlank c = true) : Lexed sigil p behind blanks []
  | lexeme {p : Position} {behind : Option Char} {blanks chars ahead : List Char} {kind : Kind}
      {lexemes : List Lexeme} (hblank : ∀ c ∈ blanks, Text.isBlank c = true)
      (hfirst : ∀ c ∈ chars.head?, Text.isBlank c = false)
      (hform : Form sigil (blanks.getLast?.or behind) ahead kind chars)
      (hmore : Lexed sigil ((p.after blanks (chars ++ ahead)).shift chars.length) chars.getLast?
        ahead lexemes) :
      Lexed sigil p behind (blanks ++ (chars ++ ahead))
        (⟨kind, String.ofList chars, .ofLength (p.after blanks (chars ++ ahead)) chars.length,
          kind.error?⟩ :: lexemes)

theorem isOrdinary_iff {sigil c : Char} : isOrdinary (some sigil) c = true ↔ Ordinary sigil c := by
  simp only [isOrdinary, isSigil, Bool.not_eq_true', Bool.or_eq_false_iff, beq_eq_false_iff_ne,
    ne_eq, Option.some.injEq]
  constructor
  · rintro ⟨⟨⟨hblank, hquote⟩, hsigil⟩, hseparator⟩
    exact ⟨hblank, hquote, hseparator, Ne.symm hsigil⟩
  · rintro ⟨hblank, hquote, hseparator, hsigil⟩
    exact ⟨⟨⟨hblank, hquote⟩, Ne.symm hsigil⟩, hseparator⟩

theorem isOrdinary_eq_false_iff {sigil c : Char} :
    isOrdinary (some sigil) c = false ↔ ¬ Ordinary sigil c := by
  rw [← isOrdinary_iff, Bool.not_eq_true]

theorem not_ordinary_of_isBlank {sigil c : Char} (hc : Text.isBlank c = true) :
    ¬ Ordinary sigil c := by
  intro h
  rw [h.not_blank] at hc
  cases hc

/-- A line break is not part of a word. -/
theorem AtBreak.not_ordinary {sigil : Char} {ahead : List Char} (h : AtBreak ahead) :
    ∀ c ∈ ahead.head?, ¬ Ordinary sigil c :=
  fun c hc => not_ordinary_of_isBlank (Text.isBlank_of_isLineBreak (h c hc))

-- ---------------------------------------------------------------------------
-- Strings
-- ---------------------------------------------------------------------------

/-- What can stand in a string is read up to what comes after it. -/
theorem Units.stringBody_append {body : List Char} (h : Units body) (tail : List Char) :
    stringBody (body ++ tail) =
      { stringBody tail with chars := body ++ (stringBody tail).chars } := by
  induction h with
  | nil => rfl
  | plain hquote hescape hline _ ih =>
    rw [List.cons_append, stringBody_cons hescape, if_neg hquote, if_neg (by simp [hline]), ih]
    rfl
  | escape hline _ ih =>
    rw [List.cons_append, List.cons_append, stringBody, if_neg (by simp [hline]), ih]
    rfl

theorem stringBody_quote (rest : List Char) :
    stringBody (quote :: rest) = ⟨[quote], true, rest⟩ := by
  rw [stringBody_cons (by decide), if_pos rfl]

theorem stringBody_of_isQuoted {cs : List Char} (h : IsQuoted (quote :: cs)) (ahead : List Char) :
    stringBody (cs ++ ahead) = ⟨cs, true, ahead⟩ := by
  obtain ⟨body, hbody, heq⟩ := h
  obtain ⟨-, rfl⟩ := List.cons.inj heq
  rw [List.append_assoc, hbody.stringBody_append, List.singleton_append, stringBody_quote]

theorem stringBody_of_isUnclosed {cs ahead : List Char} (h : IsUnclosed (quote :: cs))
    (hend : AtBreak ahead) : stringBody (cs ++ ahead) = ⟨cs, false, ahead⟩ := by
  obtain ⟨body, hbody, heq | heq⟩ := h
  · obtain ⟨-, rfl⟩ := List.cons.inj heq
    rw [hbody.stringBody_append, stringBody_of_atBreak hend, List.append_nil]
  · obtain ⟨-, rfl⟩ := List.cons.inj heq
    rw [List.append_assoc, hbody.stringBody_append, List.singleton_append,
      stringBody_backslash_of_atBreak hend]

/-- What is read of a string is units and then the closing quote, a backslash at the end of
    the line, or nothing. -/
theorem exists_units_stringBody (cs : List Char) : ∃ body, Units body ∧
    (((stringBody cs).closed = true ∧ (stringBody cs).chars = body ++ [quote]) ∨
      ((stringBody cs).closed = false ∧
        ((stringBody cs).chars = body ∨ (stringBody cs).chars = body ++ ['\\']))) := by
  fun_induction stringBody cs with
  | case1 | case6 => exact ⟨[], .nil, .inr ⟨rfl, .inl rfl⟩⟩
  | case2 | case3 => exact ⟨[], .nil, .inr ⟨rfl, .inr rfl⟩⟩
  | case4 c rest hc ih =>
    obtain ⟨body, hbody, hread⟩ := ih
    refine ⟨'\\' :: c :: body, .escape (by simpa using hc) hbody, ?_⟩
    simpa [StringBody.push] using hread
  | case5 => exact ⟨[], .nil, .inl ⟨rfl, rfl⟩⟩
  | case7 c rest hlast hescape hquote hc ih =>
    obtain ⟨body, hbody, hread⟩ := ih
    have hne : c ≠ '\\' := by
      rintro rfl
      cases rest with
      | nil => exact hlast rfl rfl
      | cons d rest => exact hescape d rest rfl rfl
    refine ⟨c :: body, .plain hquote hne (by simpa using hc) hbody, ?_⟩
    simpa [StringBody.push] using hread

theorem isQuoted_stringBody {cs : List Char} (h : (stringBody cs).closed = true) :
    IsQuoted (quote :: (stringBody cs).chars) := by
  obtain ⟨body, hbody, ⟨-, hchars⟩ | ⟨hclosed, -⟩⟩ := exists_units_stringBody cs
  · exact ⟨body, hbody, by rw [hchars]⟩
  · rw [h] at hclosed
    cases hclosed

theorem isUnclosed_stringBody {cs : List Char} (h : (stringBody cs).closed = false) :
    IsUnclosed (quote :: (stringBody cs).chars) := by
  obtain ⟨body, hbody, ⟨hclosed, -⟩ | ⟨-, hchars⟩⟩ := exists_units_stringBody cs
  · rw [h] at hclosed
    cases hclosed
  · refine ⟨body, hbody, hchars.imp (fun h => ?_) fun h => ?_⟩
    · rw [h]
    · rw [h]

/-- A string that begins with a closed one is closed. -/
theorem not_isQuoted_of_closed_eq_false {cs front : List Char} (h : (stringBody cs).closed = false)
    (hfront : front <+: quote :: cs) : ¬ IsQuoted front := by
  intro hquoted
  obtain ⟨more, hmore⟩ := hfront
  obtain ⟨body, -, rfl⟩ := id hquoted
  have hcs : cs = body ++ [quote] ++ more := (List.cons.inj hmore).2.symm
  rw [hcs, stringBody_of_isQuoted hquoted] at h
  cases h

-- ---------------------------------------------------------------------------
-- What the scanner takes
-- ---------------------------------------------------------------------------

section Piece

variable {sigil : Char} {behind : Option Char}

/-- What comes at a sigil that is not reserved is none of the other forms. -/
theorem ne_of_isReservedSigil_eq_false (hsigil : isReservedSigil sigil = false) :
    Text.isBlank sigil = false ∧ sigil ≠ quote ∧ sigil ≠ separator := by
  simp only [isReservedSigil, Bool.or_eq_false_iff, beq_eq_false_iff_ne] at hsigil
  exact ⟨hsigil.1.1.1.1, hsigil.1.1.1.2, hsigil.1.1.2⟩

theorem pieceAt_sigil (rest : List Char) : pieceAt (some sigil) sigil rest =
    ⟨.comment, sigil :: rest.takeWhile inLine, none, rest.dropWhile inLine⟩ := by
  rw [pieceAt, if_pos (by simp [isSigil])]

theorem pieceAt_quote (hsigil : isReservedSigil sigil = false) (rest : List Char) :
    pieceAt (some sigil) quote rest = stringPiece (stringBody rest) := by
  have hne := (ne_of_isReservedSigil_eq_false hsigil).2.1
  rw [pieceAt, if_neg (by simp [isSigil, hne]), if_pos rfl]

theorem pieceAt_separator (hsigil : isReservedSigil sigil = false) (rest : List Char) :
    pieceAt (some sigil) separator rest = ⟨.punctuation, [separator], none, rest⟩ := by
  have hne := (ne_of_isReservedSigil_eq_false hsigil).2.2
  rw [pieceAt, if_neg (by simp [isSigil, hne]), if_neg (by decide), if_pos rfl]

theorem pieceAt_ordinary {c : Char} (hc : Ordinary sigil c) (rest : List Char) :
    pieceAt (some sigil) c rest =
      ⟨.word, c :: rest.takeWhile (isOrdinary (some sigil)), none,
        rest.dropWhile (isOrdinary (some sigil))⟩ := by
  rw [pieceAt, if_neg (by simpa [isSigil] using Ne.symm hc.ne_sigil), if_neg hc.ne_quote,
    if_neg hc.ne_separator]

theorem Form.ne_nil {ahead chars : List Char} {kind : Kind}
    (h : Form sigil behind ahead kind chars) : chars ≠ [] := by
  cases h with
  | comment | punctuation => exact List.cons_ne_nil _ _
  | string h =>
    obtain ⟨body, -, rfl⟩ := h
    exact List.cons_ne_nil _ _
  | invalid h =>
    obtain ⟨body, -, rfl | rfl⟩ := h
    · exact List.cons_ne_nil _ _
    · exact List.cons_ne_nil _ _
  | word hne => exact hne

/-- A lexeme of some form is what the scanner takes. -/
theorem Form.pieceAt_eq (hsigil : isReservedSigil sigil = false) {c : Char}
    {more ahead : List Char} {kind : Kind} (h : Form sigil behind ahead kind (c :: more)) :
    pieceAt (some sigil) c (more ++ ahead) = ⟨kind, c :: more, kind.error?, ahead⟩ := by
  generalize hchars : c :: more = chars at h
  cases h with
  | comment hline hend =>
    obtain ⟨rfl, rfl⟩ := List.cons.inj hchars
    obtain ⟨htake, hdrop⟩ := @takeWhile_append_of_head inLine more ahead
      (fun d hd => by simp [inLine, hline d hd]) fun d hd => by simp [inLine, hend d hd]
    rw [pieceAt_sigil, htake, hdrop]
    rfl
  | punctuation =>
    obtain ⟨rfl, rfl⟩ := List.cons.inj hchars
    exact pieceAt_separator hsigil ahead
  | string hquoted =>
    obtain ⟨body, -, heq⟩ := id hquoted
    obtain ⟨rfl, -⟩ := List.cons.inj (hchars.trans heq)
    subst hchars
    rw [pieceAt_quote hsigil, stringBody_of_isQuoted hquoted]
    rfl
  | invalid hunclosed hend =>
    have hquote : c = quote := by
      obtain ⟨body, -, heq | heq⟩ := id hunclosed
      · exact (List.cons.inj (hchars.trans heq)).1
      · exact (List.cons.inj (hchars.trans heq)).1
    subst hquote hchars
    rw [pieceAt_quote hsigil, stringBody_of_isUnclosed hunclosed hend]
    rfl
  | word _ hall hend =>
    subst hchars
    obtain ⟨hc, hmore⟩ := List.forall_mem_cons.mp hall
    obtain ⟨htake, hdrop⟩ := @takeWhile_append_of_head (isOrdinary (some sigil)) more ahead
      (fun d hd => isOrdinary_iff.mpr (hmore d hd))
      fun d hd => isOrdinary_eq_false_iff.mpr (hend d hd)
    rw [pieceAt_ordinary hc, htake, hdrop]
    rfl

/-- What the scanner takes has a form, unless it takes the rest of a word. -/
theorem form_pieceAt (hsigil : isReservedSigil sigil = false) {c : Char} {rest : List Char}
    (hc : Text.isBlank c = false)
    (hbehind : Ordinary sigil c → ∀ b ∈ behind, ¬ Ordinary sigil b) :
    Form sigil behind (pieceAt (some sigil) c rest).rest (pieceAt (some sigil) c rest).kind
        (pieceAt (some sigil) c rest).chars ∧
      (pieceAt (some sigil) c rest).error = (pieceAt (some sigil) c rest).kind.error? := by
  have hstops := pieceAt_stops (some sigil) c rest
  by_cases hc_sigil : c = sigil
  · subst hc_sigil
    rw [pieceAt_sigil] at hstops ⊢
    exact ⟨.comment (fun d hd => by simpa [inLine] using List.mem_takeWhile_imp hd) hstops, rfl⟩
  by_cases hc_quote : c = quote
  · subst hc_quote
    rw [pieceAt_quote hsigil] at hstops ⊢
    simp only [stringPiece] at hstops ⊢
    cases hclosed : (stringBody rest).closed with
    | true => exact ⟨.string (isQuoted_stringBody hclosed), rfl⟩
    | false =>
      rw [hclosed] at hstops
      refine ⟨.invalid (isUnclosed_stringBody hclosed) hstops fun front hfront => ?_, rfl⟩
      -- A closed string at the beginning would be read as one.
      refine not_isQuoted_of_closed_eq_false hclosed (hfront.trans ⟨(stringBody rest).rest, ?_⟩)
      rw [List.cons_append, stringBody_chars_append_rest]
  by_cases hc_separator : c = separator
  · subst hc_separator
    rw [pieceAt_separator hsigil]
    exact ⟨.punctuation, rfl⟩
  · have hordinary : Ordinary sigil c := ⟨hc, hc_quote, hc_separator, hc_sigil⟩
    rw [pieceAt_ordinary hordinary] at hstops ⊢
    refine ⟨.word (List.cons_ne_nil _ _) (List.forall_mem_cons.mpr ⟨hordinary, ?_⟩) ?_
      (hbehind hordinary), rfl⟩
    · exact fun d hd => isOrdinary_iff.mp (List.mem_takeWhile_imp hd)
    · exact fun d hd => isOrdinary_eq_false_iff.mp (by simpa [Kind.stopsAt] using hstops d hd)

/-- Behind a lexeme no word goes on. -/
theorem Form.not_ordinary {ahead chars : List Char} {kind : Kind}
    (h : Form sigil behind ahead kind chars) :
    ∀ d ∈ ahead.head?, Ordinary sigil d → ∀ b ∈ chars.getLast?, ¬ Ordinary sigil b := by
  intro d hd hordinary b hb hb_ordinary
  cases h with
  | comment _ hend | invalid _ hend => exact hend.not_ordinary d hd hordinary
  | punctuation =>
    cases hb
    exact hb_ordinary.ne_separator rfl
  | string hquoted =>
    obtain ⟨body, -, rfl⟩ := hquoted
    rw [← List.cons_append, List.getLast?_concat] at hb
    cases hb
    exact hb_ordinary.ne_quote rfl
  | word _ _ hend => exact hend d hd hordinary

theorem Form.kind_mem_kindsAt (hsigil : isReservedSigil sigil = false) {ahead more : List Char}
    {kind : Kind} {c : Char} (h : Form sigil behind ahead kind (c :: more)) :
    kind ∈ kindsAt sigil c := by
  obtain ⟨-, hquote, hseparator⟩ := ne_of_isReservedSigil_eq_false hsigil
  generalize hchars : c :: more = chars at h
  cases h with
  | comment =>
    obtain ⟨rfl, -⟩ := List.cons.inj hchars
    simp [kindsAt]
  | punctuation =>
    obtain ⟨rfl, -⟩ := List.cons.inj hchars
    simp [kindsAt, Ne.symm hseparator, show separator ≠ quote by decide]
  | string h =>
    obtain ⟨body, -, rfl⟩ := h
    obtain ⟨rfl, -⟩ := List.cons.inj hchars
    simp [kindsAt, Ne.symm hquote]
  | invalid h =>
    obtain ⟨body, -, rfl | rfl⟩ := h
    all_goals
      obtain ⟨rfl, -⟩ := List.cons.inj hchars
      simp [kindsAt, Ne.symm hquote]
  | word _ hall =>
    obtain ⟨-, hc_quote, hc_separator, hc_sigil⟩ := hall c (hchars ▸ List.mem_cons_self ..)
    simp [kindsAt, hc_quote, hc_separator, hc_sigil]

end Piece

-- ---------------------------------------------------------------------------
-- Documents
-- ---------------------------------------------------------------------------

namespace Lexed

variable {sigil : Char} (hsigil : isReservedSigil sigil = false) {p : Position}
  {behind : Option Char} {cs : List Char} {lexemes : List Lexeme}

/-- One more blank in front changes no lexeme. -/
theorem cons_blank {c : Char} (hc : Text.isBlank c = true)
    (h : Lexed sigil (p.advance c cs) (some c) cs lexemes) :
    Lexed sigil p behind (c :: cs) lexemes := by
  cases h with
  | blanks hblank => exact .blanks (List.forall_mem_cons.mpr ⟨hc, hblank⟩)
  | @lexeme _ _ blanks chars ahead kind lexemes hblank hfirst hform hmore =>
    have hbehind : (c :: blanks).getLast?.or behind = blanks.getLast?.or (some c) := by
      cases blanks with
      | nil => rfl
      | cons d blanks => rw [List.getLast?_cons_cons, List.getLast?_cons]; rfl
    rw [← hbehind] at hform
    exact @lexeme sigil p behind (c :: blanks) chars ahead kind lexemes
      (List.forall_mem_cons.mpr ⟨hc, hblank⟩) hfirst hform hmore

include hsigil

/-- Blanks and lexemes in turn are read back by scanning. -/
theorem eq_scanFrom (h : Lexed sigil p behind cs lexemes) :
    lexemes = scanFrom (some sigil) p cs := by
  induction h with
  | @blanks p _ blanks hblank =>
    rw [← List.append_nil blanks, scanFrom_blanks hblank, scanFrom_nil]
  | @lexeme p _ blanks chars ahead kind lexemes hblank hfirst hform hmore ih =>
    obtain ⟨c, more, rfl⟩ := List.exists_cons_of_ne_nil hform.ne_nil
    have hpiece := hform.pieceAt_eq hsigil
    rw [scanFrom_blanks hblank, List.cons_append, scanFrom_piece (hfirst c rfl), hpiece, ih]
    rfl

/-- Scanning finds blanks and lexemes in turn, unless it starts inside a word. -/
theorem scanFrom_lexed (p : Position) (cs : List Char) : ∀ behind : Option Char,
    (∀ c ∈ cs.head?, Ordinary sigil c → ∀ b ∈ behind, ¬ Ordinary sigil b) →
      Lexed sigil p behind cs (scanFrom (some sigil) p cs) := by
  fun_induction scanFrom (some sigil) p cs with
  | case1 p => exact fun _ _ => .blanks (List.forall_mem_nil _)
  | case2 p c rest hc ih =>
    intro behind _
    refine cons_blank hc (ih (some c) fun d _ _ b hb => ?_)
    cases hb
    exact not_ordinary_of_isBlank hc
  | case3 p c rest hc piece ih =>
    intro behind hbehind
    have hblank : Text.isBlank c = false := by simpa using hc
    obtain ⟨hform, herror⟩ := @form_pieceAt sigil behind hsigil c rest hblank (hbehind c rfl)
    have hfirst : ∀ d ∈ piece.chars.head?, Text.isBlank d = false := by
      obtain ⟨more, hmore⟩ := pieceAt_chars_head (some sigil) c rest
      rw [hmore]
      rintro _ ⟨⟩
      exact hblank
    have hlexed := @lexeme sigil p behind [] _ _ _ _ (List.forall_mem_nil _) hfirst hform
      (ih _ hform.not_ordinary)
    rw [List.nil_append, pieceAt_chars_append_rest, ← herror] at hlexed
    exact hlexed

/-- The first character of a lexeme tells its kind. -/
theorem kind_mem_kindsAt (h : Lexed sigil p behind cs lexemes) :
    ∀ l ∈ lexemes, ∃ c more, l.text.toList = c :: more ∧ l.kind ∈ kindsAt sigil c := by
  induction h with
  | blanks => exact List.forall_mem_nil _
  | lexeme _ _ hform _ ih =>
    obtain ⟨c, more, rfl⟩ := List.exists_cons_of_ne_nil hform.ne_nil
    refine List.forall_mem_cons.mpr ⟨⟨c, more, ?_, hform.kind_mem_kindsAt hsigil⟩, ih⟩
    rw [String.toList_ofList]

end Lexed

/-- A document is blanks and lexemes in turn in exactly one way, which scanning finds, and
    the first character of each lexeme tells its kind. -/
theorem scan_lexed_iff (policy : Policy) (source : String) (lexemes : List Lexeme) :
    (Lexed policy.sigil .start none source.toList lexemes ↔
      lexemes = scan (some policy.sigil) source) ∧
    ∀ l ∈ scan (some policy.sigil) source, ∃ c more, l.text.toList = c :: more ∧
      l.kind ∈ kindsAt policy.sigil c := by
  have hlexed : Lexed policy.sigil .start none source.toList (scan (some policy.sigil) source) :=
    Lexed.scanFrom_lexed policy.sigil_free .start source.toList none nofun
  refine ⟨⟨Lexed.eq_scanFrom policy.sigil_free, ?_⟩, hlexed.kind_mem_kindsAt policy.sigil_free⟩
  rintro rfl
  exact hlexed

end AsmHighlight.Lexeme
