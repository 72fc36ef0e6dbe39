-- SUMMARY: Lists of what a relation gives at each place, in the order of the places.
import Mathlib.Data.List.Forall2
import Mathlib.Data.List.Nodup
import Mathlib.Data.List.Perm.Subperm

/-!
# Enumerations

Much of what an analysis returns is a list of findings: one for each place of
the document where something holds, and in the order of the places.
`Enumerates` says this of a list. It gives the correspondence between places
and items in both directions, so an item for no place, a place without its item
and an item that comes twice are all ruled out.
-/

namespace AsmHighlight

variable {α : Type} {P Q : Nat → α → Prop} {items : List α}

/-- The items are what `P` gives at each place, in the order of the places. -/
def Enumerates (P : Nat → α → Prop) (items : List α) : Prop :=
  ∃ places : List Nat, places.Pairwise (· < ·) ∧ (∀ i, i ∈ places ↔ ∃ a, P i a) ∧
    List.Forall₂ P places items

namespace Enumerates

theorem nil (h : ∀ i a, ¬ P i a) : Enumerates P [] :=
  ⟨[], .nil, by simp [h], .nil⟩

/-- A place in front gives an item in front. -/
theorem cons {a : α} (hfirst : P 0 a) (h : Enumerates (fun i => P (i + 1)) items) :
    Enumerates P (a :: items) := by
  obtain ⟨places, hsorted, hmem, hitems⟩ := h
  refine ⟨0 :: places.map (· + 1), ?_, ?_, ?_⟩
  · refine .cons ?_ (hsorted.map _ fun i j hij => Nat.succ_lt_succ hij)
    simp
  · intro i
    cases i with
    | zero => exact ⟨fun _ => ⟨a, hfirst⟩, fun _ => List.mem_cons_self ..⟩
    | succ i => simp [hmem]
  · exact .cons hfirst (List.forall₂_map_left_iff.mpr hitems)

/-- A place in front that gives nothing makes no difference. -/
theorem of_succ (hfirst : ∀ a, ¬ P 0 a) (h : Enumerates (fun i => P (i + 1)) items) :
    Enumerates P items := by
  obtain ⟨places, hsorted, hmem, hitems⟩ := h
  refine ⟨places.map (· + 1), ?_, ?_, ?_⟩
  · exact hsorted.map _ fun i j hij => Nat.succ_lt_succ hij
  · intro i
    cases i with
    | zero => simp [hfirst]
    | succ i => simp [hmem]
  · exact List.forall₂_map_left_iff.mpr hitems

/-- The relation can be weakened as long as it gives something at the same places. -/
theorem imp (h : Enumerates P items) (hPQ : ∀ i a, P i a → Q i a)
    (hQP : ∀ i a, Q i a → ∃ b, P i b) : Enumerates Q items := by
  obtain ⟨places, hsorted, hmem, hitems⟩ := h
  refine ⟨places, hsorted, fun i => ?_, hitems.imp fun i a => hPQ i a⟩
  rw [hmem]
  constructor
  · rintro ⟨a, ha⟩
    exact ⟨a, hPQ i a ha⟩
  · rintro ⟨a, ha⟩
    exact hQP i a ha

theorem congr (h : Enumerates P items) (hPQ : ∀ i a, P i a ↔ Q i a) : Enumerates Q items :=
  h.imp (fun i a => (hPQ i a).mp) fun i a ha => ⟨a, (hPQ i a).mpr ha⟩

/-- There are no items exactly when no place gives one. -/
theorem eq_nil_iff (h : Enumerates P items) : items = [] ↔ ∀ i a, ¬ P i a := by
  obtain ⟨places, _, hmem, hitems⟩ := h
  constructor
  · rintro rfl i a ha
    cases hitems
    exact absurd ((hmem i).mpr ⟨a, ha⟩) List.not_mem_nil
  · intro hnone
    cases hitems with
    | nil => rfl
    | cons hfirst _ => exact absurd hfirst (hnone _ _)

theorem exists_place_of_forall₂ {places : List Nat} (h : List.Forall₂ P places items) :
    ∀ a ∈ items, ∃ i ∈ places, P i a := by
  induction h with
  | nil => simp
  | @cons i a places items hfirst _ ih =>
    refine List.forall_mem_cons.mpr ⟨⟨i, List.mem_cons_self .., hfirst⟩, fun b hb => ?_⟩
    obtain ⟨j, hj, hb⟩ := ih b hb
    exact ⟨j, List.mem_cons_of_mem i hj, hb⟩

theorem exists_place (h : Enumerates P items) : ∀ a ∈ items, ∃ i, P i a := by
  obtain ⟨places, _, _, hitems⟩ := h
  intro a ha
  obtain ⟨i, _, hi⟩ := exists_place_of_forall₂ hitems a ha
  exact ⟨i, hi⟩

/-- Items are related as their places are. -/
theorem pairwise {R : α → α → Prop} (h : Enumerates P items)
    (hR : ∀ i j a b, i < j → P i a → P j b → R a b) : items.Pairwise R := by
  obtain ⟨places, hsorted, hmem, hitems⟩ := h
  clear hmem
  induction hitems with
  | nil => exact .nil
  | @cons i a places items hfirst hrest ih =>
    obtain ⟨hlt, hsorted⟩ := List.pairwise_cons.mp hsorted
    refine .cons (fun b hb => ?_) (ih hsorted)
    obtain ⟨j, hj, hb⟩ := exists_place_of_forall₂ hrest b hb
    exact hR i j a b (hlt j hj) hfirst hb

/-- A test that only the item of one place passes is passed by exactly one item. -/
theorem exists_filter_eq_singleton (h : Enumerates P items) {i : Nat} {a : α} (ha : P i a)
    {p : α → Bool} (hp : ∀ j b, P j b → (p b = true ↔ j = i)) :
    ∃ b, P i b ∧ items.filter p = [b] := by
  obtain ⟨places, hsorted, hmem, hitems⟩ := h
  have honly : places.filter (fun j => decide (j = i)) = [i] := by
    have hcount : places.count i = 1 :=
      List.count_eq_one_of_mem (hsorted.imp Nat.ne_of_lt) ((hmem i).mpr ⟨a, ha⟩)
    rw [List.filter_eq, hcount]
    rfl
  have hfiltered : List.Forall₂ P (places.filter fun j => decide (j = i)) (items.filter p) := by
    refine List.rel_filter (fun j b hb => ?_) hitems
    simp only [decide_eq_true_eq, hp j b hb]
  rw [honly] at hfiltered
  obtain ⟨b, rest, hb, hnil, heq⟩ := List.forall₂_cons_left_iff.mp hfiltered
  cases List.forall₂_nil_left_iff.mp hnil
  exact ⟨b, hb, heq⟩

/-- There are no more items than places. -/
theorem length_le (h : Enumerates P items) {n : Nat} (hlt : ∀ i a, P i a → i < n) : items.length ≤ n := by
  obtain ⟨places, hsorted, hmem, hitems⟩ := h
  have hsubset : places ⊆ List.range n := by
    intro i hi
    obtain ⟨a, ha⟩ := (hmem i).mp hi
    exact List.mem_range.mpr (hlt i a ha)
  have hnodup : places.Nodup := hsorted.imp Nat.ne_of_lt
  calc items.length
      = places.length := hitems.length_eq.symm
    _ ≤ (List.range n).length := (List.Nodup.subperm hnodup hsubset).length_le
    _ = n := List.length_range

end Enumerates

end AsmHighlight
