-- SUMMARY: Every value can be written as a string literal, and is read back from it.
import AsmHighlight.Highlighter
import AsmHighlight.Proofs.Lexeme.Forms

/-!
# Written string literals

A string literal is read twice and in different steps. The scanner looks for the
quote that closes it and passes over the character behind each backslash, whatever
it is. The decoder takes the escapes for what they mean, and the escape `\x` goes on
as far as there are digits.

Written literals (`encodeString`) hold no escape `\x`, so both readers go through them
character by character of the value. The scanner finds units and the closing quote
(`isQuoted_encodeString`), the decoder finds the value (`decodeString_encodeString`),
and a document of the literal alone is one token that carries the value
(`encodeString_read_back`).
-/

namespace AsmHighlight

namespace Literal

-- ---------------------------------------------------------------------------
-- Writing
-- ---------------------------------------------------------------------------

/-- A character is written as an escape of one letter that stands for it, or as itself. -/
theorem escapeChar_cases (c : Char) :
    (∃ letter, escapeChar c = ['\\', letter] ∧ letter ≠ 'x' ∧ escape? letter = some c ∧
        Text.isLineBreak letter = false) ∨
      (escapeChar c = [c] ∧ c ≠ '\\' ∧ c ≠ '"' ∧ Text.isLineBreak c = false) := by
  by_cases hescape : c = '\\'
  · subst hescape
    exact .inl ⟨'\\', by decide⟩
  by_cases hquote : c = '"'
  · subst hquote
    exact .inl ⟨'"', by decide⟩
  by_cases hlf : c = '\n'
  · subst hlf
    exact .inl ⟨'n', by decide⟩
  by_cases hcr : c = '\r'
  · subst hcr
    exact .inl ⟨'r', by decide⟩
  · have hself : escapeChar c = [c] := by
      rw [escapeChar, if_neg hescape, if_neg hquote, if_neg hlf, if_neg hcr]
    exact .inr ⟨hself, hescape, hquote, by simp [Text.isLineBreak, hlf, hcr]⟩

theorem toList_encodeString (value : String) :
    (encodeString value).toList = '"' :: (value.toList.flatMap escapeChar ++ ['"']) := by
  rw [encodeString, String.toList_ofList, List.cons_append]

-- ---------------------------------------------------------------------------
-- Decoding
-- ---------------------------------------------------------------------------

theorem unescape_cons {c : Char} (hc : c ≠ '\\') (rest : List Char) :
    unescape (c :: rest) = c :: unescape rest := by
  conv => lhs; unfold unescape
  split <;> simp_all

/-- An escape other than `\x` ends behind its letter. -/
theorem unescape_escape {c : Char} (hc : c ≠ 'x') (rest : List Char) :
    unescape ('\\' :: c :: rest) = (escape? c).getD c :: unescape rest := by
  match rest with
  | [] => rfl
  | [a] => rw [unescape, if_neg hc]
  | a :: b :: rest => rw [unescape, if_neg hc]

theorem unescape_escapeChar_append (c : Char) (rest : List Char) :
    unescape (escapeChar c ++ rest) = c :: unescape rest := by
  obtain ⟨letter, hwritten, hletter, hmeant, -⟩ | ⟨hwritten, hescape, -, -⟩ := escapeChar_cases c
  · rw [hwritten, List.cons_append, List.singleton_append, unescape_escape hletter, hmeant]
    rfl
  · rw [hwritten, List.singleton_append, unescape_cons hescape]

theorem unescape_flatMap_escapeChar (cs : List Char) : unescape (cs.flatMap escapeChar) = cs := by
  induction cs with
  | nil => rfl
  | cons c cs ih => rw [List.flatMap_cons, unescape_escapeChar_append, ih]

theorem bodyOf_quoted (body : List Char) : bodyOf ('"' :: (body ++ ['"'])) = body := by
  have hlength : 2 ≤ ('"' :: (body ++ ['"'])).length := by simp
  have hlast : ('"' :: (body ++ ['"'])).getLast? = some '"' := by
    rw [← List.cons_append, List.getLast?_concat]
  rw [bodyOf, if_pos ⟨hlength, hlast⟩, List.drop_one, List.tail_cons, List.dropLast_concat]

/-- The value of a written literal is the one that was written. -/
theorem decodeString_encodeString (value : String) : decodeString (encodeString value) = value := by
  rw [decodeString, toList_encodeString, bodyOf_quoted, unescape_flatMap_escapeChar,
    String.ofList_toList]

-- ---------------------------------------------------------------------------
-- Scanning
-- ---------------------------------------------------------------------------

theorem units_escapeChar_append (c : Char) {rest : List Char} (h : Lexeme.Units rest) :
    Lexeme.Units (escapeChar c ++ rest) := by
  obtain ⟨letter, hwritten, -, -, hline⟩ | ⟨hwritten, hescape, hquote, hline⟩ := escapeChar_cases c
  · rw [hwritten]
    exact .escape hline h
  · rw [hwritten]
    exact .plain hquote hescape hline h

theorem units_flatMap_escapeChar (cs : List Char) : Lexeme.Units (cs.flatMap escapeChar) := by
  induction cs with
  | nil => exact .nil
  | cons c cs ih => exact units_escapeChar_append c ih

/-- A written literal is closed by its last character and by no other. -/
theorem isQuoted_encodeString (value : String) : Lexeme.IsQuoted (encodeString value).toList :=
  ⟨_, units_flatMap_escapeChar value.toList, toList_encodeString value⟩

end Literal

/-- A string alone in a document is one lexeme, whatever starts a comment. -/
theorem Lexeme.scan_of_isQuoted {sigil : Char} (hsigil : isReservedSigil sigil = false)
    {text : String} (h : IsQuoted text.toList) :
    scan (some sigil) text = [⟨.string, text, .ofLength .start text.length, none⟩] := by
  obtain ⟨body, -, htext⟩ := id h
  rw [htext] at h
  have hpiece : pieceAt (some sigil) quote (body ++ [quote]) =
      ⟨.string, text.toList, none, []⟩ := by
    have hbody := stringBody_of_isQuoted h []
    rw [List.append_nil] at hbody
    rw [pieceAt_quote hsigil, hbody, htext]
    rfl
  rw [scan, htext, scanFrom_piece (by decide), hpiece, scanFrom_nil, ofPiece, String.ofList_toList,
    String.length_toList]

namespace Highlighter

open Literal

/-- Every value can be written as a literal and is read back: the document of the literal
    alone is scanned as one string and classified as one token with the value. -/
theorem encodeString_read_back (h : Highlighter) (value : String) :
    h.lexemes (encodeString value) =
        [⟨.string, encodeString value, .ofLength .start (encodeString value).length, none⟩] ∧
      h.classified (encodeString value) =
        .ok [⟨.stringLiteral, encodeString value, .ofLength .start (encodeString value).length,
          [.stringValue value]⟩] ∧
      decodeString (encodeString value) = value := by
  have hlexemes := Lexeme.scan_of_isQuoted h.policy.sigil_free (isQuoted_encodeString value)
  refine ⟨hlexemes, ?_, decodeString_encodeString value⟩
  rw [classified, lexemes, hlexemes, Token.classifyAll, Token.classifyFrom, Option.filter_none,
    Token.classify, decodeString_encodeString]
  rfl

-- Backslashes, quotes, an end of line and what looks like an escape are all kept.
example : encodeString "\\x41\"\n" = "\"\\\\x41\\\"\\n\"" := by decide

end Highlighter

end AsmHighlight
