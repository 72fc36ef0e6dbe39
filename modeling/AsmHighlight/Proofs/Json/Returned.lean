-- SUMMARY: What the reader of JSON returns keeps to the bounds of reading.
import AsmHighlight.Proofs.Json.Reading
import AsmHighlight.Proofs.Json.Rendered
import AsmHighlight.Proofs.Literal.Integer

/-!
# Values that were read

The reader has no integer longer than decimal text can be, and no more containers open
at once than it has room for. So the values it returns fit in one level more than that
(`fits_of_read`): a scalar may stand in the innermost container.
-/

namespace AsmHighlight

theorem Decimal.ofDigits_lt {digits : List Nat} (h : ∀ d ∈ digits, d < 10) :
    ofDigits 10 digits < 10 ^ digits.length := by
  rw [Literal.ofDigits_eq, ← List.length_reverse]
  exact Nat.ofDigits_lt_base_pow_length (by decide) fun d hd => h d (List.mem_reverse.mp hd)

namespace Json

/-- The reader fails, or returns something with the property. -/
def Yields {α : Type} (P : α → Prop) : Except ReadFault (α × Remaining) → Prop
  | .ok (value, _) => P value
  | .error _ => True

theorem Yields.bind {α β : Type} {P : α → Prop} {Q : β → Prop}
    {x : Except ReadFault (α × Remaining)} {f : α × Remaining → Except ReadFault (β × Remaining)}
    (hx : Yields P x) (hf : ∀ value after, P value → Yields Q (f (value, after))) :
    Yields Q (x >>= f) := by
  cases x with
  | ok pair => exact hf pair.1 pair.2 hx
  | error fault => trivial

-- ---------------------------------------------------------------------------
-- Scalars
-- ---------------------------------------------------------------------------

theorem readString_yields (start : Nat) (done : List Nat) (offset : Nat) (cs : List Char) :
    Yields (fun _ => True) (readString start done offset cs) := by
  cases readString start done offset cs with
  | ok _ => trivial
  | error _ => trivial

theorem digitValue_lt {c : Char} (hc : c.isDigit = true) : digitValue c < 10 := by
  simp only [Char.isDigit, Bool.and_eq_true, decide_eq_true_eq] at hc
  have hle : c.val.toNat ≤ 57 := UInt32.le_iff_toNat_le.mp hc.2
  rw [digitValue, Char.toNat]
  omega

/-- Digits that are read make up a number that can be written. -/
theorem isOverlong_of_read {digits : List Nat} {n : Nat} (hdigits : ∀ d ∈ digits, d < 10)
    (h : Decimal.read digits = .ok n) (negative : Bool) :
    Decimal.isOverlong (if negative then -(n : Int) else n) = false := by
  unfold Decimal.read at h
  split at h
  next hlength =>
    cases h
    have hlt : Decimal.ofDigits 10 digits < 10 ^ Decimal.maxDigits :=
      Nat.lt_of_lt_of_le (Decimal.ofDigits_lt hdigits) (Nat.pow_le_pow_right (by decide) hlength)
    refine Decimal.isOverlong_eq_false ?_
    cases negative <;> simpa using hlt
  next => cases h

theorem readNumber_yields (room : Nat) (r : Remaining) :
    Yields (Fits (room + 1)) (readNumber r) := by
  unfold readNumber
  simp only
  split
  next => trivial
  next whole _ hwhole =>
    split
    next =>
      split
      next => trivial
      next n hread =>
        have hdigits : ∀ d ∈ whole.map digitValue, d < 10 := by
          intro d hd
          obtain ⟨c, hc, rfl⟩ := List.mem_map.mp hd
          exact digitValue_lt ((takeWhole_eq_some hwhole).2 c hc)
        exact ⟨isOverlong_of_read hdigits hread _, Nat.le_add_left 1 room⟩
    next => exact ⟨rfl, Nat.le_add_left 1 room⟩

theorem readScalar_yields (room : Nat) (r : Remaining) :
    Yields (Fits (room + 1)) (readScalar r) := by
  unfold readScalar
  split
  next word value hfind =>
    have hwords : ∀ entry ∈ words, entry.2.hasOverlong = false ∧ entry.2.depth = 1 := by
      simp [words, depth]
    obtain ⟨hshort, hdepth⟩ := hwords _ (List.mem_of_find?_eq_some hfind)
    exact ⟨hshort, hdepth.le.trans (Nat.le_add_left 1 room)⟩
  next => exact readNumber_yields room r

-- ---------------------------------------------------------------------------
-- Containers
-- ---------------------------------------------------------------------------

section Containers

variable {room : Nat} {item : Remaining → Except ReadFault (Json × Remaining)}
  (hitem : ∀ r, Yields (Fits room) (item r))

include hitem

theorem readItems_yields (fuel : Nat) {done : List Json} (hdone : ∀ value ∈ done, value.Fits room)
    (r : Remaining) :
    Yields (fun items => ∀ value ∈ items, value.Fits room) (readItems item fuel done r) := by
  induction fuel generalizing done r with
  | zero => trivial
  | succ fuel ih =>
    rw [readItems]
    refine (hitem r).bind fun value after hvalue => ?_
    have hmore : ∀ v ∈ value :: done, v.Fits room := List.forall_mem_cons.mpr ⟨hvalue, hdone⟩
    simp only
    split
    next => exact fun v hv => hmore v (List.mem_reverse.mp hv)
    next => exact ih hmore _
    next => trivial

theorem readFields_yields (fuel : Nat) {known : List (Text.Loose × Json)}
    (hknown : ∀ field ∈ known, field.2.Fits room) (r : Remaining) :
    Yields (fun fields => ∀ field ∈ fields, field.2.Fits room)
      (readFields item fuel known r) := by
  induction fuel generalizing known r with
  | zero => trivial
  | succ fuel ih =>
    rw [readFields]
    split
    next rest _ =>
      refine (readString_yields ..).bind fun key after _ => ?_
      simp only
      split
      next =>
        refine (hitem _).bind fun value after hvalue => ?_
        have hmore : ∀ field ∈ Keyed.put known key value, field.2.Fits room := by
          intro field hfield
          rcases Keyed.mem_put hfield with hfield | rfl
          · exact hknown field hfield
          · exact hvalue
        simp only
        split
        next => exact hmore
        next => exact ih hmore _
        next => trivial
      next => trivial
    next => trivial

theorem readArray_yields (fuel : Nat) (r : Remaining) :
    Yields (Fits (room + 1)) (readArray fuel item r) := by
  unfold readArray
  simp only
  split
  next => exact fits_arr_iff.mpr (by simp)
  next =>
    exact (readItems_yields hitem fuel (by simp) _).bind fun _ _ hitems => fits_arr_iff.mpr hitems

theorem readObject_yields (fuel : Nat) (r : Remaining) :
    Yields (Fits (room + 1)) (readObject fuel item r) := by
  unfold readObject
  simp only
  split
  next => exact fits_obj_iff.mpr (by simp)
  next =>
    refine (readFields_yields hitem fuel (by simp) _).bind fun _ _ hfields => ?_
    exact fits_obj_iff.mpr hfields

end Containers

-- ---------------------------------------------------------------------------
-- Values
-- ---------------------------------------------------------------------------

theorem readValue_yields (fuel room : Nat) (r : Remaining) :
    Yields (Fits (room + 1)) (readValue fuel room r) := by
  induction room generalizing r with
  | zero =>
    unfold readValue
    split
    next => exact (readString_yields ..).bind fun _ _ _ => ⟨rfl, Nat.le_add_left ..⟩
    next => trivial
    next => trivial
    next => exact readScalar_yields 0 r
  | succ room ih =>
    unfold readValue
    split
    next => exact (readString_yields ..).bind fun _ _ _ => ⟨rfl, Nat.le_add_left ..⟩
    next => exact readArray_yields ih fuel _
    next => exact readObject_yields ih fuel _
    next => exact readScalar_yields (room + 1) r

/-- Every value that is read fits in one level more than containers may be open. -/
theorem fits_of_read {text : String} {value : Json} (h : read text = .ok value) :
    value.Fits (maxDepth + 1) := by
  unfold read at h
  simp only at h
  split at h
  next => cases h
  next =>
    obtain ⟨⟨value', after⟩, hvalue, h⟩ := Except.bind_eq_ok_iff.mp h
    have hfits := readValue_yields text.toList.length maxDepth (.skipSpace ⟨0, text.toList⟩)
    rw [hvalue] at hfits
    split at h
    next => cases h; exact hfits
    next => cases h

end Json

end AsmHighlight
