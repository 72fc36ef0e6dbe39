-- SUMMARY: Sorting diagnostics that are moved, filtered, or about separate parts of a document.
import AsmHighlight.Proofs.Diagnostic.Sorted
import AsmHighlight.Proofs.Relocation
import Mathlib.Data.List.Pairwise
import Mathlib.Data.List.TakeWhile

/-!
# Sorting and relocation

Places take part in the order of presentation through their offsets. A
relocation that keeps the order of the places in a document (`KeepsOrder`)
therefore commutes with sorting (`sort_relocate`). Sorting is stable, so it
commutes with leaving out diagnostics of any kind (`filter_sort_eq`), and what
is about an earlier part of the document comes first (`sort_eq_append`).
-/

namespace AsmHighlight

-- ---------------------------------------------------------------------------
-- Moved diagnostics
-- ---------------------------------------------------------------------------

/-- The relocation keeps the order of the starts and of the ends of two ranges. -/
structure Relocation.KeepsOrder (ρ : Relocation) (r s : Range) : Prop where
  start : (ρ.start r.start).offset < (ρ.start s.start).offset ↔ r.start.offset < s.start.offset
  stop : (ρ.stop r.stop).offset < (ρ.stop s.stop).offset ↔ r.stop.offset < s.stop.offset

/-- The first range starts and ends before the other does. -/
def Range.Precedes (r s : Range) : Prop :=
  r.start.offset < s.start.offset ∧ r.stop.offset < s.stop.offset

theorem Range.Precedes.keepsOrder {ρ : Relocation} {r s : Range} (h : r.Precedes s)
    (hmoved : (r.relocate ρ).Precedes (s.relocate ρ)) : ρ.KeepsOrder r s ∧ ρ.KeepsOrder s r := by
  simp only [Precedes, relocate] at h hmoved
  exact ⟨⟨by omega, by omega⟩, by omega, by omega⟩

/-- Ranges that follow each other before and after a relocation are kept in order. -/
theorem Relocation.keepsOrder_of_pairwise {ρ : Relocation} {ranges : List Range}
    (h : ranges.Pairwise Range.Precedes)
    (hmoved : (ranges.map (Range.relocate ρ)).Pairwise Range.Precedes) :
    ∀ r ∈ ranges, ∀ s ∈ ranges, ρ.KeepsOrder r s := by
  rw [List.pairwise_map] at hmoved
  have hboth : ranges.Pairwise fun r s => ρ.KeepsOrder r s ∧ ρ.KeepsOrder s r :=
    (h.and hmoved).imp fun hrs => hrs.1.keepsOrder hrs.2
  have hsymm : Std.Symm fun r s => ρ.KeepsOrder r s ∧ ρ.KeepsOrder s r := ⟨fun _ _ => And.symm⟩
  have hself (r : Range) : ρ.KeepsOrder r r := ⟨by simp, by simp⟩
  intro r hr s hs
  exact (hboth.forall_of_forall (fun r _ => ⟨hself r, hself r⟩) hr hs).1

namespace Diagnostic

/-- The range of the diagnostic goes from the start of one range to the end of another. -/
structure Spans (ranges : List Range) (d : Diagnostic) : Prop where
  start : ∃ r ∈ ranges, d.range.start = r.start
  stop : ∃ r ∈ ranges, d.range.stop = r.stop

theorem Spans.of_range_eq {ranges : List Range} {r : Range} {d : Diagnostic} (hr : r ∈ ranges)
    (h : d.range = r) : d.Spans ranges :=
  ⟨⟨r, hr, congrArg Range.start h⟩, ⟨r, hr, congrArg Range.stop h⟩⟩

section Relocate

variable {ρ : Relocation} {ranges : List Range}
  (hρ : ∀ r ∈ ranges, ∀ s ∈ ranges, ρ.KeepsOrder r s)

include hρ

theorem sortLe_relocate {d e : Diagnostic} (hd : d.Spans ranges) (he : e.Spans ranges) :
    sortLe (d.relocate ρ) (e.relocate ρ) = sortLe d e := by
  obtain ⟨r, hr, hdstart⟩ := hd.start
  obtain ⟨r', hr', hdstop⟩ := hd.stop
  obtain ⟨s, hs, hestart⟩ := he.start
  obtain ⟨s', hs', hestop⟩ := he.stop
  have hstart := (hρ r hr s hs).start
  have hstart' := (hρ s hs r hr).start
  have hstop := (hρ r' hr' s' hs').stop
  have hstop' := (hρ s' hs' r' hr').stop
  rw [← hdstart, ← hestart] at hstart hstart'
  rw [← hdstop, ← hestop] at hstop hstop'
  have hstarteq : (ρ.start d.range.start).offset = (ρ.start e.range.start).offset ↔
      d.range.start.offset = e.range.start.offset := by omega
  have hstopeq : (ρ.stop d.range.stop).offset = (ρ.stop e.range.stop).offset ↔
      d.range.stop.offset = e.range.stop.offset := by omega
  rw [Bool.eq_iff_iff, sortLe_iff, sortLe_iff]
  simp only [relocate, Range.relocate, hstart, hstop, hstarteq, hstopeq]
  rfl

theorem sort_relocate {ds : List Diagnostic} (h : ∀ d ∈ ds, d.Spans ranges) :
    sort (ds.map (relocate ρ)) = (sort ds).map (relocate ρ) :=
  (List.map_mergeSort fun d hd e he => (sortLe_relocate hρ (h d hd) (h e he)).symm).symm

end Relocate

theorem sort_mapHint (f : Option String → Option String) (ds : List Diagnostic) :
    sort (ds.map (mapHint f)) = (sort ds).map (mapHint f) := by
  have hle (d e : Diagnostic) : sortLe d e = sortLe (d.mapHint f) (e.mapHint f) := rfl
  exact (List.map_mergeSort fun d _ e _ => hle d e).symm

-- ---------------------------------------------------------------------------
-- Parts of a list
-- ---------------------------------------------------------------------------

/-- Sorting puts a diagnostic in front of the first that may not come before it. -/
theorem exists_sort_cons (d : Diagnostic) (ds : List Diagnostic) :
    ∃ front back, sort (d :: ds) = front ++ d :: back ∧ sort ds = front ++ back ∧
      (∀ e ∈ front, sortLe d e = false) ∧ ∀ e ∈ back, sortLe d e = true := by
  obtain ⟨front, back, hcons, hsort, hfront⟩ :=
    List.mergeSort_cons sortLe_trans sortLe_total d ds
  refine ⟨front, back, hcons, hsort, fun e he => by simpa using hfront e he, ?_⟩
  have hsorted := List.pairwise_mergeSort sortLe_trans sortLe_total (d :: ds)
  rw [hcons, List.pairwise_append, List.pairwise_cons] at hsorted
  exact hsorted.2.1.1

/-- There is one place where a diagnostic can be put in. -/
theorem append_inj_of_sortLe {d : Diagnostic} {front back front' back' : List Diagnostic}
    (h : front ++ back = front' ++ back') (hfront : ∀ e ∈ front, sortLe d e = false)
    (hback : ∀ e ∈ back, sortLe d e = true) (hfront' : ∀ e ∈ front', sortLe d e = false)
    (hback' : ∀ e ∈ back', sortLe d e = true) : front = front' ∧ back = back' := by
  have htake {front back : List Diagnostic} (hfront : ∀ e ∈ front, sortLe d e = false)
      (hback : ∀ e ∈ back, sortLe d e = true) :
      (front ++ back).takeWhile (fun e => !sortLe d e) = front := by
    rw [List.takeWhile_append_of_pos fun e he => by simp [hfront e he]]
    cases back with
    | nil => simp
    | cons e back => simp [hback e (List.mem_cons_self ..)]
  have hfronts : front = front' := by rw [← htake hfront hback, h, htake hfront' hback']
  exact ⟨hfronts, List.append_cancel_left (hfronts ▸ h)⟩

/-- Leaving diagnostics out before sorting or after it is the same. -/
theorem filter_sort_eq (p : Diagnostic → Bool) (ds : List Diagnostic) :
    (sort ds).filter p = sort (ds.filter p) := by
  induction ds with
  | nil => simp [sort]
  | cons d ds ih =>
    obtain ⟨front, back, hcons, hsort, hfront, hback⟩ := exists_sort_cons d ds
    rw [hsort, List.filter_append] at ih
    rw [hcons, List.filter_append]
    by_cases hd : p d = true
    · rw [List.filter_cons_of_pos hd, List.filter_cons_of_pos hd]
      obtain ⟨front', back', hcons', hsort', hfront', hback'⟩ := exists_sort_cons d (ds.filter p)
      obtain ⟨hfronts, hbacks⟩ := append_inj_of_sortLe (ih.trans hsort')
        (fun e he => hfront e (List.mem_of_mem_filter he))
        (fun e he => hback e (List.mem_of_mem_filter he)) hfront' hback'
      rw [hcons', hfronts, hbacks]
    · rw [List.filter_cons_of_neg hd, List.filter_cons_of_neg hd, ih]

theorem eq_filter_append_filter {p : Diagnostic → Bool} {ds : List Diagnostic}
    (h : ds.Pairwise fun d e => p e = true → p d = true) :
    ds = ds.filter p ++ ds.filter fun d => !p d := by
  induction ds with
  | nil => rfl
  | cons d ds ih =>
    obtain ⟨hd, hds⟩ := List.pairwise_cons.mp h
    by_cases hp : p d = true
    · rw [List.filter_cons_of_pos hp, List.filter_cons_of_neg (by simp [hp]), List.cons_append,
        ← ih hds]
    · have hnone : ds.filter p = [] := List.filter_eq_nil_iff.mpr fun e he hpe => hp (hd e he hpe)
      rw [List.filter_cons_of_neg hp, List.filter_cons_of_pos (by simpa using hp), hnone,
        List.nil_append]
      rw [hnone, List.nil_append] at ih
      rw [← ih hds]

/-- Diagnostics that start before an offset are presented before those that do not. -/
theorem sort_eq_append (offset : Int) (ds : List Diagnostic) :
    sort ds = sort (ds.filter fun d => d.range.start.offset < offset) ++
      sort (ds.filter fun d => !decide (d.range.start.offset < offset)) := by
  rw [← filter_sort_eq, ← filter_sort_eq]
  refine eq_filter_append_filter ?_
  refine (List.pairwise_mergeSort sortLe_trans sortLe_total ds).imp fun {d e} hle => ?_
  rw [sortLe_iff] at hle
  simp only [decide_eq_true_eq]
  omega

end Diagnostic

end AsmHighlight
