-- SUMMARY: Which JSON values have a text, and what keeps the others from having one.
import AsmHighlight.Json.Printer
import AsmHighlight.Json.Render
import AsmHighlight.Proofs.Except
import AsmHighlight.Proofs.Keyed
import Mathlib.Logic.Basic

/-!
# Values with a text

A value is rendered if its integers have decimal text within the bound and no more
values are open in it at once than there is room for (`Json.Fits`), and otherwise it
is not (`Json.exists_renderAt_iff`). What ends the rendering is in the value
(`Json.Unrendered.IsTrueOf`).
-/

namespace AsmHighlight.Json

-- ---------------------------------------------------------------------------
-- Integers
-- ---------------------------------------------------------------------------

theorem anyOverlong_iff {items : List Json} :
    anyOverlong items = true ↔ ∃ item ∈ items, item.hasOverlong = true := by
  induction items with
  | nil => simp [anyOverlong]
  | cons item rest ih => simp [anyOverlong, ih]

theorem anyFieldOverlong_eq (fields : List (Text.Loose × Json)) :
    anyFieldOverlong fields = anyOverlong (fields.map Prod.snd) := by
  induction fields with
  | nil => rfl
  | cons field rest ih => rw [anyFieldOverlong, ih, List.map_cons, anyOverlong]

@[simp] theorem hasOverlong_null : null.hasOverlong = false := rfl

@[simp] theorem hasOverlong_bool (b : Bool) : (bool b).hasOverlong = false := rfl

@[simp] theorem hasOverlong_int (n : Int) : (int n).hasOverlong = Decimal.isOverlong n := rfl

@[simp] theorem hasOverlong_float (x : Decimal.Binary64) : (float x).hasOverlong = false := rfl

@[simp] theorem hasOverlong_str (s : Text.Loose) : (str s).hasOverlong = false := rfl

theorem hasOverlong_arr_iff {items : List Json} :
    (arr items).hasOverlong = true ↔ ∃ item ∈ items, item.hasOverlong = true := by
  rw [hasOverlong, anyOverlong_iff]

theorem hasOverlong_obj (fields : List (Text.Loose × Json)) :
    (obj fields).hasOverlong = (arr (fields.map Prod.snd)).hasOverlong :=
  anyFieldOverlong_eq fields

theorem hasOverlong_obj_iff {fields : List (Text.Loose × Json)} :
    (obj fields).hasOverlong = true ↔ ∃ field ∈ fields, field.2.hasOverlong = true := by
  rw [hasOverlong_obj, hasOverlong_arr_iff]
  simp only [List.mem_map, exists_exists_and_eq_and]

-- ---------------------------------------------------------------------------
-- Nesting
-- ---------------------------------------------------------------------------

mutual

/-- How many values are open at once in a value, itself included. -/
def depth : Json → Nat
  | .arr items => depthItems items + 1
  | .obj fields => depthFields fields + 1
  | _ => 1

def depthItems : List Json → Nat
  | [] => 0
  | item :: rest => max (depth item) (depthItems rest)

def depthFields : List (Text.Loose × Json) → Nat
  | [] => 0
  | (_, value) :: rest => max (depth value) (depthFields rest)

end

theorem depth_pos (value : Json) : 0 < value.depth := by
  cases value <;> simp [depth]

theorem depthItems_le_iff {items : List Json} {room : Nat} :
    depthItems items ≤ room ↔ ∀ item ∈ items, item.depth ≤ room := by
  induction items with
  | nil => simp [depthItems]
  | cons item rest ih => rw [depthItems, Nat.max_le, List.forall_mem_cons, ih]

theorem depthFields_eq (fields : List (Text.Loose × Json)) :
    depthFields fields = depthItems (fields.map Prod.snd) := by
  induction fields with
  | nil => rfl
  | cons field rest ih => rw [depthFields, ih, List.map_cons, depthItems]

theorem depth_obj (fields : List (Text.Loose × Json)) :
    (obj fields).depth = (arr (fields.map Prod.snd)).depth :=
  congrArg (· + 1) (depthFields_eq fields)

-- ---------------------------------------------------------------------------
-- Fitting
-- ---------------------------------------------------------------------------

/-- The integers of the value have decimal text within the bound, and at most `room`
    values are open in it at once. -/
structure Fits (room : Nat) (value : Json) : Prop where
  integers : value.hasOverlong = false
  depth_le : value.depth ≤ room

section Fits

variable {room : Nat} {value : Json} {items : List Json} {fields : List (Text.Loose × Json)}

theorem Fits.mono {more : Nat} (h : value.Fits room) (hle : room ≤ more) : value.Fits more :=
  ⟨h.integers, Nat.le_trans h.depth_le hle⟩

theorem fits_str (s : Text.Loose) : (str s).Fits maxDepth :=
  ⟨rfl, (by decide : 1 ≤ maxDepth)⟩

theorem not_fits_zero : ¬ value.Fits 0 := fun h =>
  absurd h.depth_le (Nat.not_le.mpr (depth_pos value))

theorem fits_arr_iff : (arr items).Fits (room + 1) ↔ ∀ item ∈ items, item.Fits room := by
  constructor
  · rintro ⟨hshort, hdepth⟩ item hitem
    rw [depth, Nat.add_le_add_iff_right, depthItems_le_iff] at hdepth
    refine ⟨?_, hdepth item hitem⟩
    rw [← Bool.not_eq_true, hasOverlong_arr_iff] at hshort
    exact Bool.eq_false_iff.mpr fun hlong => hshort ⟨item, hitem, hlong⟩
  · intro h
    refine ⟨?_, ?_⟩
    · rw [← Bool.not_eq_true, hasOverlong_arr_iff]
      rintro ⟨item, hitem, hlong⟩
      exact Bool.false_ne_true ((h item hitem).integers.symm.trans hlong)
    · rw [depth, Nat.add_le_add_iff_right, depthItems_le_iff]
      exact fun item hitem => (h item hitem).depth_le

/-- An object fits like the array of the values in it. -/
theorem fits_obj_iff : (obj fields).Fits (room + 1) ↔ ∀ field ∈ fields, field.2.Fits room := by
  have harr : (obj fields).Fits (room + 1) ↔ (arr (fields.map Prod.snd)).Fits (room + 1) :=
    ⟨fun h => ⟨(hasOverlong_obj fields).symm.trans h.integers, depth_obj fields ▸ h.depth_le⟩,
      fun h => ⟨(hasOverlong_obj fields).trans h.integers, depth_obj fields ▸ h.depth_le⟩⟩
  rw [harr, fits_arr_iff, List.forall_mem_map]

/-- The member of an object fits in less room than the object. -/
theorem Fits.get? {data : Json} {key : String} (h : data.Fits (room + 1))
    (hget : data.get? key = some value) : value.Fits room := by
  unfold Json.get? at hget
  split at hget
  next fields => exact fits_obj_iff.mp h _ (Keyed.mem_of_get?_eq_some hget)
  next => cases hget

theorem Fits.of_get? {data : Json} {key : String} (h : data.Fits room)
    (hget : data.get? key = some value) : value.Fits room := by
  cases room with
  | zero => exact absurd h not_fits_zero
  | succ room => exact (h.get? hget).mono (Nat.le_succ room)

end Fits

-- ---------------------------------------------------------------------------
-- Rendering
-- ---------------------------------------------------------------------------

/-- What is said to end the rendering of a value is in it. -/
def Unrendered.IsTrueOf (room : Nat) (value : Json) : Unrendered → Prop
  | .overlong cause => cause = .writing ∧ value.hasOverlong = true
  | .tooDeep => room < value.depth

section Rendering

variable {room : Nat} {value : Json} {items : List Json} {fields : List (Text.Loose × Json)}
  {cause : Unrendered}

theorem Unrendered.IsTrueOf.not_fits (h : cause.IsTrueOf room value) : ¬ value.Fits room := by
  intro hfits
  cases cause with
  | overlong => exact Bool.false_ne_true (hfits.integers.symm.trans h.2)
  | tooDeep => exact absurd hfits.depth_le (Nat.not_le.mpr h)

theorem Unrendered.IsTrueOf.arr {item : Json} (h : cause.IsTrueOf room item)
    (hitem : item ∈ items) : cause.IsTrueOf (room + 1) (.arr items) := by
  cases cause with
  | overlong => exact ⟨h.1, hasOverlong_arr_iff.mpr ⟨item, hitem, h.2⟩⟩
  | tooDeep =>
    have hle := depthItems_le_iff.mp (Nat.le_refl (depthItems items)) item hitem
    exact Nat.add_lt_add_right (Nat.lt_of_lt_of_le h hle) 1

theorem Unrendered.IsTrueOf.obj {field : Text.Loose × Json} (h : cause.IsTrueOf room field.2)
    (hfield : field ∈ fields) : cause.IsTrueOf (room + 1) (.obj fields) := by
  have hitem := h.arr (List.mem_map_of_mem (f := Prod.snd) hfield)
  cases cause with
  | overlong => exact ⟨hitem.1, (hasOverlong_obj fields).trans hitem.2⟩
  | tooDeep => exact Nat.lt_of_lt_of_eq hitem (depth_obj fields).symm

theorem exists_of_renderItems (h : renderItems room items = .error cause) :
    ∃ item ∈ items, renderAt room item = .error cause := by
  induction items with
  | nil => cases h
  | cons item rest ih =>
    rcases Except.bind_eq_error_iff.mp h with h | ⟨_, -, h⟩
    · exact ⟨item, List.mem_cons_self .., h⟩
    rcases Except.bind_eq_error_iff.mp h with h | ⟨_, -, h⟩
    · obtain ⟨bad, hmem, hbad⟩ := ih h
      exact ⟨bad, List.mem_cons_of_mem _ hmem, hbad⟩
    · cases h

/-- The members of an object are rendered as far as the values in them are, as items. -/
theorem map_renderFields (room : Nat) (fields : List (Text.Loose × Json)) :
    (renderFields room fields).map (fun _ => ()) =
      (renderItems room (fields.map Prod.snd)).map fun _ => () := by
  induction fields with
  | nil => rfl
  | cons field rest ih =>
    rw [renderFields, List.map_cons, renderItems]
    cases renderAt room field.2 with
    | error cause => rfl
    | ok part =>
      cases hrest : renderFields room rest with
      | error cause =>
        rw [hrest] at ih
        rw [Except.map_eq_error_iff.mp ih.symm]
        rfl
      | ok more =>
        rw [hrest] at ih
        obtain ⟨items, hitems, -⟩ := Except.map_eq_ok_iff.mp ih.symm
        rw [hitems]
        rfl

theorem exists_of_renderFields (h : renderFields room fields = .error cause) :
    ∃ field ∈ fields, renderAt room field.2 = .error cause := by
  have hmap := map_renderFields room fields
  rw [h] at hmap
  obtain ⟨item, hitem, hcause⟩ := exists_of_renderItems (Except.map_eq_error_iff.mp hmap.symm)
  obtain ⟨field, hfield, rfl⟩ := List.mem_map.mp hitem
  exact ⟨field, hfield, hcause⟩

/-- What ends the rendering of a value is in it. -/
theorem isTrueOf_of_renderAt (h : renderAt room value = .error cause) :
    cause.IsTrueOf room value := by
  induction room generalizing value with
  | zero =>
    rw [renderAt_zero] at h
    cases h
    exact depth_pos value
  | succ room ih =>
    cases value with
    | arr items =>
      rcases Except.bind_eq_error_iff.mp h with h | ⟨_, -, h⟩
      · obtain ⟨item, hitem, h⟩ := exists_of_renderItems h
        exact (ih h).arr hitem
      · cases h
    | obj fields =>
      rcases Except.bind_eq_error_iff.mp h with h | ⟨_, -, h⟩
      · obtain ⟨field, hfield, h⟩ := exists_of_renderFields h
        exact (ih h).obj hfield
      · cases h
    | int n =>
      rw [renderAt, Decimal.write] at h
      split at h
      next hlong => cases h; exact ⟨rfl, hlong⟩
      next => cases h
    | bool b => cases b <;> cases h
    | _ => cases h

theorem isTrueOf_of_renderPlain (h : value.renderPlain = .error cause) :
    cause.IsTrueOf maxDepth value := by
  unfold renderPlain at h
  split at h
  next => cases h
  next => exact isTrueOf_of_renderAt h

end Rendering

end AsmHighlight.Json
