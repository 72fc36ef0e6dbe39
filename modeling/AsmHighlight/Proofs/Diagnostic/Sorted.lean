-- SUMMARY: The order of presentation is a total order, and sorting keeps findings that are in order.
import AsmHighlight.Diagnostic.Basic

/-!
# Sorted diagnostics

Diagnostics are compared by place first. Where the places are the same, code and
message break the tie (`tieLe`). The comparison is total and transitive, so
sorting only moves diagnostics that are out of order; in particular those of one
kind, if they were found in order, stand in the result as they were found
(`filter_sort`).
-/

namespace AsmHighlight

theorem Text.textLe_total (a b : String) : textLe a b = true ∨ textLe b a = true :=
  codesLe_total _ _

theorem Text.textLe_trans {a b c : String} (h : textLe a b = true) (h' : textLe b c = true) :
    textLe a c = true :=
  codesLe_trans h h'

theorem Text.textLe_antisymm {a b : String} (h : textLe a b = true) (h' : textLe b a = true) :
    a = b :=
  textCodes_injective (codesLe_antisymm h h')

namespace Diagnostic

theorem Code.name_injective {a b : Code} (h : a.name = b.name) : a = b := by
  revert h
  cases a <;> cases b <;> decide

/-- The order of diagnostics of the same place. -/
def tieLe (d e : Diagnostic) : Prop :=
  (d.code ≠ e.code ∧ Text.textLe d.code.name e.code.name = true) ∨
    (d.code = e.code ∧ Text.textLe d.message e.message = true)

theorem tieLe_total (d e : Diagnostic) : tieLe d e ∨ tieLe e d := by
  by_cases hcode : d.code = e.code
  · rcases Text.textLe_total d.message e.message with h | h
    · exact .inl (.inr ⟨hcode, h⟩)
    · exact .inr (.inr ⟨hcode.symm, h⟩)
  · rcases Text.textLe_total d.code.name e.code.name with h | h
    · exact .inl (.inl ⟨hcode, h⟩)
    · exact .inr (.inl ⟨Ne.symm hcode, h⟩)

theorem tieLe_trans {d e f : Diagnostic} (h : tieLe d e) (h' : tieLe e f) : tieLe d f := by
  rcases h with ⟨hne, h⟩ | ⟨heq, h⟩
  · rcases h' with ⟨_, h'⟩ | ⟨heq', _⟩
    · refine .inl ⟨fun hcode => hne ?_, Text.textLe_trans h h'⟩
      rw [← hcode] at h'
      exact Code.name_injective (Text.textLe_antisymm h h')
    · exact .inl (heq' ▸ ⟨hne, h⟩)
  · rcases h' with ⟨hne', h'⟩ | ⟨heq', h'⟩
    · exact .inl (heq ▸ ⟨hne', h'⟩)
    · exact .inr ⟨heq.trans heq', Text.textLe_trans h h'⟩

theorem sortLe_iff {d e : Diagnostic} :
    sortLe d e = true ↔ d.range.start.offset < e.range.start.offset ∨
      d.range.start.offset = e.range.start.offset ∧
        (d.range.stop.offset < e.range.stop.offset ∨
          d.range.stop.offset = e.range.stop.offset ∧ tieLe d e) := by
  unfold sortLe tieLe
  split
  next hstart => simp [hstart]
  next hstart =>
    have hstart := Decidable.not_not.mp hstart
    split
    next hstop => simp [hstart, hstop]
    next hstop =>
      have hstop := Decidable.not_not.mp hstop
      split
      next hcode => simp [hstart, hstop, hcode]
      next hcode => simp [hstart, hstop, Decidable.not_not.mp hcode]

theorem sortLe_total (d e : Diagnostic) : (sortLe d e || sortLe e d) = true := by
  rw [Bool.or_eq_true, sortLe_iff, sortLe_iff]
  rcases Int.lt_trichotomy d.range.start.offset e.range.start.offset with hstart | hstart | hstart
  · exact .inl (.inl hstart)
  · rcases Int.lt_trichotomy d.range.stop.offset e.range.stop.offset with hstop | hstop | hstop
    · exact .inl (.inr ⟨hstart, .inl hstop⟩)
    · rcases tieLe_total d e with htie | htie
      · exact .inl (.inr ⟨hstart, .inr ⟨hstop, htie⟩⟩)
      · exact .inr (.inr ⟨hstart.symm, .inr ⟨hstop.symm, htie⟩⟩)
    · exact .inr (.inr ⟨hstart.symm, .inl hstop⟩)
  · exact .inr (.inl hstart)

theorem sortLe_trans (d e f : Diagnostic) (h : sortLe d e = true) (h' : sortLe e f = true) :
    sortLe d f = true := by
  rw [sortLe_iff] at h h' ⊢
  rcases h with h | ⟨hstart, h⟩
  · rcases h' with h' | ⟨hstart', _⟩
    · exact .inl (by omega)
    · exact .inl (by omega)
  · rcases h' with h' | ⟨hstart', h'⟩
    · exact .inl (by omega)
    · refine .inr ⟨hstart.trans hstart', ?_⟩
      rcases h with h | ⟨hstop, htie⟩
      · rcases h' with h' | ⟨hstop', _⟩
        · exact .inl (by omega)
        · exact .inl (by omega)
      · rcases h' with h' | ⟨hstop', htie'⟩
        · exact .inl (by omega)
        · exact .inr ⟨hstop.trans hstop', tieLe_trans htie htie'⟩

theorem sortLe_of_start_lt {d e : Diagnostic}
    (h : d.range.start.offset < e.range.start.offset) : sortLe d e = true :=
  sortLe_iff.mpr (.inl h)

/-- Findings that all have one code are kept or left out together. -/
theorem filter_code {ds : List Diagnostic} {own code : Code} (h : ∀ d ∈ ds, d.code = own) :
    ds.filter (fun d => d.code = code) = if own = code then ds else [] := by
  split
  next hcode =>
    rw [List.filter_eq_self]
    intro d hd
    exact decide_eq_true ((h d hd).trans hcode)
  next hcode =>
    rw [List.filter_eq_nil_iff]
    intro d hd hd'
    exact hcode ((h d hd).symm.trans (of_decide_eq_true hd'))

/-- Findings of one kind that are in order stay as they are. -/
theorem filter_sort {ds : List Diagnostic} {p : Diagnostic → Bool}
    (h : (ds.filter p).Pairwise fun d e => sortLe d e = true) : (sort ds).filter p = ds.filter p := by
  have hsub : (ds.filter p).Sublist (sort ds) :=
    List.sublist_mergeSort sortLe_trans sortLe_total h List.filter_sublist
  have hfiltered : (ds.filter p).Sublist ((sort ds).filter p) := by
    simpa using hsub.filter p
  refine (hfiltered.eq_of_length ?_).symm
  exact ((List.mergeSort_perm ds sortLe).filter p).length_eq.symm

end Diagnostic

end AsmHighlight
