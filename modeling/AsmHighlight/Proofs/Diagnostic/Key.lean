-- SUMMARY: The order of presentation as the order of sort keys, and diagnostics with different keys.
import AsmHighlight.Proofs.Diagnostic.Relocated
import AsmHighlight.Stream.Basic
import Mathlib.Data.List.Sort
import Mathlib.Data.Prod.Lex
import Mathlib.Data.String.Basic

/-!
# Sort keys

Diagnostics are presented in the order of a key: start, end, code and message,
compared one after the other (`sortLe_iff_sortKey_le`). Severity and hint are no
part of it, so two diagnostics with the same key would stand in the order in
which they were found. Where all keys are different, the keys of the sorted list
increase (`sortKey_lt_sort`), and the order of finding is of no matter
(`sort_eq_of_perm`).
-/

namespace AsmHighlight

/-- Texts are ordered by their characters. -/
theorem Text.textLe_iff_le {s t : String} : textLe s t = true ↔ s ≤ t := by
  have hcodes (as bs : List Char) :
      codesLe (as.map Char.toNat) (bs.map Char.toNat) = true ↔ ¬ bs < as := by
    induction as generalizing bs with
    | nil => simp [codesLe]
    | cons a as ih =>
      cases bs with
      | nil => simp [codesLe]
      | cons b bs =>
        have hlt : b < a ↔ b.toNat < a.toNat := Iff.rfl
        rw [List.cons_lt_cons_iff, hlt, ← Char.toNat_inj]
        simp only [List.map_cons, codesLe]
        grind
  rw [← not_lt, String.lt_iff_toList_lt]
  exact hcodes s.toList t.toList

namespace Diagnostic

/-- What diagnostics are presented by: start, end, code and message. -/
def sortKey (d : Diagnostic) : Int ×ₗ Int ×ₗ String ×ₗ String :=
  toLex (d.range.start.offset, toLex (d.range.stop.offset, toLex (d.code.name, d.message)))

theorem sortKey_eq_iff {d e : Diagnostic} :
    d.sortKey = e.sortKey ↔ d.range.start.offset = e.range.start.offset ∧
      d.range.stop.offset = e.range.stop.offset ∧ d.code = e.code ∧ d.message = e.message := by
  have hcode : d.code.name = e.code.name ↔ d.code = e.code :=
    ⟨Code.name_injective, congrArg Code.name⟩
  simp only [sortKey, toLex_inj, Prod.mk.injEq, hcode]

theorem sortLe_iff_sortKey_le {d e : Diagnostic} :
    sortLe d e = true ↔ d.sortKey ≤ e.sortKey := by
  have htie : tieLe d e ↔
      d.code.name < e.code.name ∨ d.code.name = e.code.name ∧ d.message ≤ e.message := by
    rw [tieLe, Text.textLe_iff_le, Text.textLe_iff_le]
    by_cases hcode : d.code = e.code
    · simp [hcode]
    · have hname : d.code.name ≠ e.code.name := fun heq => hcode (Code.name_injective heq)
      simp [hcode, hname, le_iff_lt_or_eq]
  simp only [sortLe_iff, sortKey, Prod.Lex.toLex_le_toLex, htie]

theorem sorted_sort (ds : List Diagnostic) :
    (sort ds).Pairwise fun d e => d.sortKey ≤ e.sortKey :=
  (List.pairwise_mergeSort sortLe_trans sortLe_total ds).imp sortLe_iff_sortKey_le.mp

theorem sort_perm (ds : List Diagnostic) : (sort ds).Perm ds :=
  List.mergeSort_perm ds sortLe

section Different

variable {ds es : List Diagnostic} (h : (ds.map sortKey).Nodup)

include h

theorem sortKey_lt_sort : ((sort ds).map sortKey).Pairwise (· < ·) := by
  have hne : ((sort ds).map sortKey).Nodup := ((sort_perm ds).map sortKey).nodup_iff.mpr h
  have hle : ((sort ds).map sortKey).Pairwise (· ≤ ·) := List.pairwise_map.mpr (sorted_sort ds)
  exact (hle.and hne).imp fun hboth => lt_of_le_of_ne hboth.1 hboth.2

theorem sort_eq_of_perm (hperm : es.Perm ds) : sort es = sort ds := by
  have hsorted : (sort es).Perm (sort ds) :=
    (sort_perm es).trans (hperm.trans (sort_perm ds).symm)
  refine hsorted.eq_of_pairwise ?_ (sorted_sort es) (sorted_sort ds)
  intro d e hd he hle hge
  have hd : d ∈ ds := hperm.mem_iff.mp ((sort_perm es).mem_iff.mp hd)
  have he : e ∈ ds := (sort_perm ds).mem_iff.mp he
  exact List.inj_on_of_nodup_map h hd he (le_antisymm hle hge)

end Different

/-- Ranges that follow each other are known by where they start, and by where they end. -/
theorem Spans.range_eq {ranges : List Range} (hranges : ranges.Pairwise Range.Precedes)
    {d e : Diagnostic} (hd : d.Spans ranges) (he : e.Spans ranges)
    (hstart : d.range.start.offset = e.range.start.offset)
    (hstop : d.range.stop.offset = e.range.stop.offset) : d.range = e.range := by
  have hstarts : (ranges.map fun r => r.start.offset).Nodup :=
    hranges.map _ fun r s hrs => Int.ne_of_lt hrs.1
  have hstops : (ranges.map fun r => r.stop.offset).Nodup :=
    hranges.map _ fun r s hrs => Int.ne_of_lt hrs.2
  obtain ⟨r, hr, hdstart⟩ := hd.start
  obtain ⟨r', hr', hdstop⟩ := hd.stop
  obtain ⟨s, hs, hestart⟩ := he.start
  obtain ⟨s', hs', hestop⟩ := he.stop
  rw [hdstart, hestart] at hstart
  rw [hdstop, hestop] at hstop
  rw [Range.mk.injEq, hdstart, hdstop, hestart, hestop]
  exact ⟨congrArg Range.start (List.inj_on_of_nodup_map hstarts hr hs hstart),
    congrArg Range.stop (List.inj_on_of_nodup_map hstops hr' hs' hstop)⟩

end Diagnostic

end AsmHighlight
