-- SUMMARY: What a JSON text must hold for its reader to stop at one of its bounds.
import AsmHighlight.Json.Reader
import AsmHighlight.Proofs.Except
import Mathlib.Data.List.TakeWhile

/-!
# The bounds of the JSON reader

Each part of the reader leaves an end of what it was given (`Within`), so a fault
that it meets there is a fault of the whole text. The reader stops at an integer
only if the text has a run of too many digits, and at a container only if more
containers open in the text than may be open at once (`exceeds_of_read_eq_error`).
A text within these bounds is read, or is not JSON (`malformed_of_bounded`).
-/

namespace AsmHighlight.Json

/-- The text holds a run of digits that is too long to be read as an integer. -/
def HasLongRun (cs : List Char) : Prop :=
  ∃ digits, digits <:+: cs ∧ (∀ c ∈ digits, c.isDigit = true) ∧ Decimal.maxDigits < digits.length

/-- A container starts with the character, if it does not stand in a string. -/
def isOpening (c : Char) : Bool :=
  c == '[' || c == '\x7b'

/-- What a text goes beyond when the reader meets a fault in it, with `room` for open
    containers. -/
def ReadFault.Exceeds (room : Nat) (cs : List Char) : ReadFault → Prop
  | .malformed _ _ => True
  | .overlong _ => HasLongRun cs
  | .tooDeep _ => room < cs.countP isOpening

theorem HasLongRun.mono {cs ds : List Char} (h : HasLongRun cs) (hsuffix : cs <:+ ds) :
    HasLongRun ds := by
  obtain ⟨digits, hinfix, hdigits, hlong⟩ := h
  exact ⟨digits, hinfix.trans hsuffix.isInfix, hdigits, hlong⟩

theorem ReadFault.Exceeds.mono {room : Nat} {cs ds : List Char} {fault : ReadFault}
    (h : fault.Exceeds room cs) (hsuffix : cs <:+ ds) : fault.Exceeds room ds := by
  cases fault with
  | malformed => trivial
  | overlong => exact HasLongRun.mono h hsuffix
  | tooDeep => exact Nat.lt_of_lt_of_le h (hsuffix.sublist.countP_le)

/-- Inside a container there is room for one less. -/
theorem ReadFault.Exceeds.inside {room : Nat} {c : Char} {cs : List Char} {fault : ReadFault}
    (h : fault.Exceeds room cs) (hc : isOpening c = true) : fault.Exceeds (room + 1) (c :: cs) := by
  cases fault with
  | malformed => trivial
  | overlong => exact HasLongRun.mono h (List.suffix_cons c cs)
  | tooDeep =>
    simp only [ReadFault.Exceeds] at h ⊢
    rw [List.countP_cons_of_pos hc]
    omega

/-- The reader keeps to the text: it leaves an end of it, or meets a fault that the text
    explains. -/
def Within {α : Type} (room : Nat) (cs : List Char) : Except ReadFault (α × Remaining) → Prop
  | .ok (_, after) => after.chars <:+ cs
  | .error fault => fault.Exceeds room cs

section Within

variable {α β : Type} {room : Nat} {cs ds : List Char}

theorem Within.mono {result : Except ReadFault (α × Remaining)} (h : Within room cs result)
    (hsuffix : cs <:+ ds) : Within room ds result := by
  cases result with
  | ok pair => exact List.IsSuffix.trans h hsuffix
  | error fault => exact ReadFault.Exceeds.mono h hsuffix

theorem Within.bind {x : Except ReadFault (α × Remaining)}
    {f : α × Remaining → Except ReadFault (β × Remaining)} (hx : Within room cs x)
    (hf : ∀ value after, after.chars <:+ cs → Within room after.chars (f (value, after))) :
    Within room cs (x >>= f) := by
  cases x with
  | ok pair => exact (hf pair.1 pair.2 hx).mono hx
  | error fault => exact hx

end Within

-- ---------------------------------------------------------------------------
-- Blanks, strings and numbers
-- ---------------------------------------------------------------------------

theorem skipSpaceFrom_suffix (offset : Nat) (cs : List Char) :
    (skipSpaceFrom offset cs).chars <:+ cs := by
  fun_induction skipSpaceFrom offset cs with
  | case1 => exact List.suffix_refl _
  | case2 _ c rest _ ih => exact ih.trans (List.suffix_cons c rest)
  | case3 => exact List.suffix_refl _

theorem Remaining.skipSpace_suffix (r : Remaining) : r.skipSpace.chars <:+ r.chars :=
  skipSpaceFrom_suffix r.offset r.chars

/-- What stands behind a mark and the blanks around it. -/
theorem Remaining.suffix_of_mark {r : Remaining} {mark : Char} {rest : List Char}
    (h : r.skipSpace.chars = mark :: rest) : rest <:+ r.chars :=
  (List.suffix_cons mark rest).trans (h ▸ r.skipSpace_suffix)

/-- Reading a string fails only where the text is not JSON. -/
theorem readString_within (room start : Nat) (done : List Nat) (offset : Nat) (cs : List Char) :
    Within room cs (readString start done offset cs) := by
  fun_induction readString start done offset cs
  case case2 => exact List.suffix_cons ..
  all_goals first
    | trivial
    | next ih => exact ih.mono (by simp [List.suffix_cons_iff])

theorem takeWhole_eq_some {cs whole rest : List Char} (h : takeWhole cs = some (whole, rest)) :
    cs = whole ++ rest ∧ ∀ c ∈ whole, c.isDigit = true := by
  unfold takeWhole at h
  split at h
  next => cases h; exact ⟨rfl, by simp⟩
  next =>
    split at h
    next =>
      cases h
      exact ⟨List.takeWhile_append_dropWhile.symm, fun c hc => List.mem_takeWhile_imp hc⟩
    next => cases h
  next => cases h

theorem takeDigits_suffix (cs : List Char) : (takeDigits cs).2 <:+ cs :=
  List.dropWhile_suffix _

theorem takeFraction_suffix (cs : List Char) : (takeFraction cs).2 <:+ cs := by
  unfold takeFraction
  split
  next c rest =>
    split
    next => exact (takeDigits_suffix _).trans (List.suffix_cons ..)
    next => exact List.suffix_refl _
  next => exact List.suffix_refl _

theorem takeSign_suffix (plus : Bool) (cs : List Char) : (takeSign plus cs).2.2 <:+ cs := by
  unfold takeSign
  split
  next => exact List.suffix_cons ..
  next => split <;> simp
  next => exact List.suffix_refl _

theorem takeExponent_suffix {cs rest : List Char} {power : Int} {width : Nat}
    (h : takeExponent cs = some (power, width, rest)) : rest <:+ cs := by
  unfold takeExponent at h
  split at h
  next => cases h
  next mark after =>
    split at h
    next =>
      have hsign := takeSign_suffix true after
      simp only at h
      split at h
      next => cases h
      next digits behind _ htake =>
        cases h
        have hdigits := takeDigits_suffix (takeSign true after).2.2
        rw [htake] at hdigits
        exact (hdigits.trans hsign).trans (List.suffix_cons mark after)
    next => cases h

/-- Reading a number fails where there is none, and at an integer that is too long. -/
theorem readNumber_within (room : Nat) (r : Remaining) : Within room r.chars (readNumber r) := by
  unfold readNumber
  have hsign := takeSign_suffix false r.chars
  simp only
  split
  next => trivial
  next whole afterWhole hwhole =>
    obtain ⟨hbody, hdigits⟩ := takeWhole_eq_some hwhole
    have hafter : afterWhole <:+ r.chars :=
      (hbody ▸ List.suffix_append whole afterWhole).trans hsign
    have hfraction := (takeFraction_suffix afterWhole).trans hafter
    split
    next =>
      split
      next cause hread =>
        have hlong : Decimal.maxDigits < whole.length := by
          rw [Decimal.read, List.length_map] at hread
          split at hread
          next => cases hread
          next h => exact Nat.lt_of_not_le h
        have hinfix : whole <:+: (takeSign false r.chars).2.2 := by
          rw [hbody]
          exact (List.prefix_append whole afterWhole).isInfix
        exact ⟨whole, hinfix.trans hsign.isInfix, hdigits, hlong⟩
      next => exact hfraction
    next =>
      cases hexponent : takeExponent (takeFraction afterWhole).2 with
      | none => exact hfraction
      | some exponent => exact (takeExponent_suffix hexponent).trans hfraction

theorem readScalar_within (room : Nat) (r : Remaining) : Within room r.chars (readScalar r) := by
  unfold readScalar
  split
  next => exact List.drop_suffix ..
  next => exact readNumber_within room r

-- ---------------------------------------------------------------------------
-- Containers
-- ---------------------------------------------------------------------------

section Containers

variable {room : Nat} {item : Remaining → Except ReadFault (Json × Remaining)}
  (hitem : ∀ r, Within room r.chars (item r))

include hitem

theorem readItems_within (fuel : Nat) (done : List Json) (r : Remaining) :
    Within room r.chars (readItems item fuel done r) := by
  induction fuel generalizing done r with
  | zero => trivial
  | succ fuel ih =>
    rw [readItems]
    refine (hitem r).bind fun value after _ => ?_
    simp only
    split
    next rest heq => exact Remaining.suffix_of_mark heq
    next rest heq =>
      exact (ih _ _).mono ((Remaining.skipSpace_suffix _).trans (Remaining.suffix_of_mark heq))
    next => trivial

theorem readFields_within (fuel : Nat) (known : List (Text.Loose × Json)) (r : Remaining) :
    Within room r.chars (readFields item fuel known r) := by
  induction fuel generalizing known r with
  | zero => trivial
  | succ fuel ih =>
    rw [readFields]
    split
    next rest hquote =>
      have hrest : rest <:+ r.chars := hquote ▸ List.suffix_cons _ rest
      refine Within.bind ((readString_within room _ _ _ rest).mono hrest) fun key after _ => ?_
      simp only
      split
      next rest heq =>
        have hvalue := (hitem (Remaining.skipSpace ⟨after.skipSpace.offset + 1, rest⟩)).mono
          ((Remaining.skipSpace_suffix _).trans (Remaining.suffix_of_mark heq))
        refine hvalue.bind fun value after _ => ?_
        simp only
        split
        next rest heq => exact Remaining.suffix_of_mark heq
        next rest heq =>
          exact (ih _ _).mono ((Remaining.skipSpace_suffix _).trans (Remaining.suffix_of_mark heq))
        next => trivial
      next => trivial
    next => trivial

theorem readArray_within (fuel : Nat) (r : Remaining) :
    Within room r.chars (readArray fuel item r) := by
  unfold readArray
  simp only
  split
  next rest heq => exact Remaining.suffix_of_mark heq
  next =>
    refine Within.bind ((readItems_within hitem fuel [] r.skipSpace).mono r.skipSpace_suffix) ?_
    exact fun items after _ => List.suffix_refl _

theorem readObject_within (fuel : Nat) (r : Remaining) :
    Within room r.chars (readObject fuel item r) := by
  unfold readObject
  simp only
  split
  next rest heq => exact Remaining.suffix_of_mark heq
  next =>
    refine Within.bind ((readFields_within hitem fuel [] r.skipSpace).mono r.skipSpace_suffix) ?_
    exact fun fields after _ => List.suffix_refl _

end Containers

-- ---------------------------------------------------------------------------
-- Values
-- ---------------------------------------------------------------------------

theorem Within.inside {α : Type} {room : Nat} {c : Char} {cs : List Char}
    {result : Except ReadFault (α × Remaining)} (h : Within room cs result)
    (hc : isOpening c = true) : Within (room + 1) (c :: cs) result := by
  cases result with
  | ok pair => exact List.IsSuffix.trans h (List.suffix_cons c cs)
  | error fault => exact ReadFault.Exceeds.inside h hc

/-- Without room a container that opens is a fault, and with room it has less inside. -/
theorem readValue_within (fuel room : Nat) (r : Remaining) :
    Within room r.chars (readValue fuel room r) := by
  induction room generalizing r with
  | zero =>
    unfold readValue
    split
    next rest heq =>
      rw [heq]
      refine Within.bind ((readString_within 0 _ _ _ rest).mono (List.suffix_cons ..)) ?_
      exact fun text after _ => List.suffix_refl _
    next rest heq => rw [heq]; exact List.countP_pos_iff.mpr ⟨'[', List.mem_cons_self, rfl⟩
    next rest heq => rw [heq]; exact List.countP_pos_iff.mpr ⟨_, List.mem_cons_self, rfl⟩
    next => exact readScalar_within 0 r
  | succ room ih =>
    unfold readValue
    split
    next rest heq =>
      rw [heq]
      refine Within.bind ((readString_within _ _ _ _ rest).mono (List.suffix_cons ..)) ?_
      exact fun text after _ => List.suffix_refl _
    next rest heq => rw [heq]; exact (readArray_within ih fuel ⟨r.offset + 1, rest⟩).inside rfl
    next rest heq => rw [heq]; exact (readObject_within ih fuel ⟨r.offset + 1, rest⟩).inside rfl
    next => exact readScalar_within _ r

/-- A fault of the reader is a fault of the text: it is not JSON, or goes beyond a bound. -/
theorem exceeds_of_read_eq_error {text : String} {fault : ReadFault}
    (h : read text = .error fault) : fault.Exceeds maxDepth text.toList := by
  unfold read at h
  simp only at h
  split at h
  next => cases h; trivial
  next =>
    have hvalue := readValue_within text.toList.length maxDepth (.skipSpace ⟨0, text.toList⟩)
    rcases Except.bind_eq_error_iff.mp h with hfault | ⟨value, _, hfault⟩
    · rw [hfault] at hvalue
      exact ReadFault.Exceeds.mono hvalue (Remaining.skipSpace_suffix _)
    · split at hfault
      next => cases hfault
      next => cases hfault; trivial

/-- The characters have no run of digits that is too long, and no more of them open a
    container than may be open at once. -/
structure Bounded (cs : List Char) : Prop where
  runs : ¬ HasLongRun cs
  openings : cs.countP isOpening ≤ maxDepth

theorem malformed_of_bounded {text : String} {fault : ReadFault} (hbounded : Bounded text.toList)
    (h : read text = .error fault) : ∃ reason offset, fault = .malformed reason offset := by
  have hexceeds := exceeds_of_read_eq_error h
  cases fault with
  | malformed reason offset => exact ⟨reason, offset, rfl⟩
  | overlong => exact absurd hexceeds hbounded.runs
  | tooDeep => exact absurd hexceeds (Nat.not_lt_of_le hbounded.openings)

end AsmHighlight.Json
