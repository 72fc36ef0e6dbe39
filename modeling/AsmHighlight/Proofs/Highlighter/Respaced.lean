-- SUMMARY: Highlighting does not depend on the blanks between the lexemes of a document.
import AsmHighlight.Proofs.Highlighter.Relocated
import AsmHighlight.Proofs.Lexeme.Respaced

/-!
# Documents with other blanks

A respaced document has the lexemes of the document on the same lines, so its stream
is the relocated stream. Such a relocation moves columns and offsets, and with them
the place that the hint on a repeated label tells. Everything else stays
(`Stream.withoutColumns`).
-/

namespace AsmHighlight

/-- The stream without its columns and offsets, and without the hints of its diagnostics,
    which can tell a column. -/
def Stream.withoutColumns (s : Stream) : Stream :=
  (s.relocate .forgetColumns).mapHints fun _ => none

/-- Places that move along their lines move only what is left out. -/
theorem Stream.withoutColumns_relocate {ρ : Relocation}
    (hstart : ∀ p : Position, p.SameLine (ρ.start p))
    (hstop : ∀ p : Position, p.SameLine (ρ.stop p)) (s : Stream) :
    (s.relocate ρ).withoutColumns = s.withoutColumns := by
  rw [withoutColumns, relocate_trans, Relocation.trans_forgetColumns hstart hstop]
  rfl

theorem Stream.withoutColumns_mapHints (s : Stream) :
    (s.mapHints fun _ => none).withoutColumns = s.withoutColumns := by
  simp only [withoutColumns, mapHints, relocate, List.map_map]
  rfl

namespace Highlighter

/-- A document in which other blanks stand between the lexemes is highlighted alike: it
    fails alike, or its stream differs in columns, offsets and hints only. -/
theorem highlight_respaced (h : Highlighter) {source moved : String}
    (hrespaced : Lexeme.Respaced false ((h.lexemes source).map Lexeme.text) source.toList
      moved.toList) (version : Json) :
    (h.highlight moved version).map Stream.withoutColumns =
      (h.highlight source version).map Stream.withoutColumns := by
  have halike : List.Forall₂ (Lexeme.Alike Position.SameLine) (h.lexemes source)
      (h.lexemes moved) := hrespaced.alike rfl rfl
  have hrefl : ∀ p : Position, p.SameLine p := fun _ => rfl
  obtain ⟨ρ, hstart, hstop, hlexemes⟩ :=
    exists_relocation_lexemes hrefl (fun _ _ hline => hline) halike
  have hmoved := highlight_relocate hlexemes (Label.sameDuplicateHints_none ρ) version
  calc
    _ = ((h.highlight moved version).map (Stream.mapHints fun _ => none)).map
        Stream.withoutColumns := by
      simp only [Except.map_map, Function.comp_def, Stream.withoutColumns_mapHints]
    _ = (h.highlight source version).map Stream.withoutColumns := by
      simp only [hmoved, Except.map_map, Function.comp_def, Stream.withoutColumns_mapHints,
        Stream.withoutColumns_relocate hstart hstop]

/-- Lexemes that touch are moved apart, and the blank before the second line goes. -/
theorem highlight_respaced_touching : ∃ s s', standard.highlight "#d8\"c\",d\n\t.a;b" = .ok s ∧
    standard.highlight " #d8\u3000\"c\" ,\t d\n.a ;b" = .ok s' ∧
      s'.withoutColumns = s.withoutColumns := by
  have hrespaced : Lexeme.Respaced false
      ((standard.lexemes "#d8\"c\",d\n\t.a;b").map Lexeme.text) "#d8\"c\",d\n\t.a;b".toList
      " #d8\u3000\"c\" ,\t d\n.a ;b".toList := by
    have htexts : (standard.lexemes "#d8\"c\",d\n\t.a;b").map Lexeme.text =
        ["#d8", "\"c\"", ",", "d", ".a", ";b"] := by with_unfolding_all decide
    have hnone : Lexeme.IsGap [] := nofun
    have hcomment := Lexeme.Respaced.sameLine true ";b" hnone (by decide : Lexeme.IsGap [' '])
      (by decide) (.tail nofun : Lexeme.Respaced true [] [] [])
    have hlabel := @Lexeme.Respaced.text true ['\n'] ['\t'] [] _ _ ".a" _
      (List.forall_mem_singleton.mpr rfl) (by simp [Text.isLineBreak]) (by decide) hnone nofun
      hcomment
    have hword := Lexeme.Respaced.sameLine true "d" hnone (by decide : Lexeme.IsGap ['\t', ' '])
      (by decide) hlabel
    have hcomma := Lexeme.Respaced.sameLine true "," hnone (by decide : Lexeme.IsGap [' '])
      (by decide) hword
    have hstring := Lexeme.Respaced.sameLine true "\"c\"" hnone (by decide : Lexeme.IsGap ['\u3000'])
      (by decide) hcomma
    have hfirst := Lexeme.Respaced.sameLine false "#d8" hnone (by decide : Lexeme.IsGap [' '])
      (by decide) hstring
    rw [htexts]
    simpa using hfirst
  have hsame := highlight_respaced standard hrespaced .null
  have hisOk : (standard.highlight "#d8\"c\",d\n\t.a;b").isOk = true := by with_unfolding_all decide
  obtain ⟨s, hs⟩ := Except.exists_eq_ok_of_isOk hisOk
  rw [hs] at hsame
  obtain ⟨s', hs', hagree⟩ := Except.map_eq_ok_iff.mp hsame
  exact ⟨s, s', hs, hs', hagree⟩

end Highlighter

end AsmHighlight
