-- SUMMARY: When the results of highlighting can be written as JSON.
import AsmHighlight.Proofs.Directive.Checked
import AsmHighlight.Proofs.Json.Rendered
import AsmHighlight.Stream.Basic

/-!
# Written streams

A JSON value can be written unless it holds an integer that is too long. The
integers of a stream are places, widths, a count and the values of literals. All
but the last are small if the document is not enormous: `Within n` says of each
part of a stream that these integers are at most `n`. What is left is that a
stream cannot be written exactly when one of its literals is too long
(`Stream.hasOverlong_toJson_iff`).
-/

namespace AsmHighlight

-- ---------------------------------------------------------------------------
-- Values
-- ---------------------------------------------------------------------------

namespace Json

theorem hasOverlong_object_iff {fields : List (String × Json)} :
    (object fields).hasOverlong = true ↔ ∃ field ∈ fields, field.2.hasOverlong = true := by
  rw [object, hasOverlong_obj_iff]
  simp only [List.mem_map, exists_exists_and_eq_and]

/-- An object is written if each of its members is. -/
theorem hasOverlong_object_eq_false {fields : List (String × Json)}
    (h : ∀ field ∈ fields, field.2.hasOverlong = false) : (object fields).hasOverlong = false := by
  rw [← Bool.not_eq_true, hasOverlong_object_iff]
  rintro ⟨field, hfield, hlong⟩
  rw [h field hfield] at hlong
  cases hlong

/-- An array is written if each of its items is. -/
theorem hasOverlong_arr_eq_false {items : List Json}
    (h : ∀ item ∈ items, item.hasOverlong = false) : (arr items).hasOverlong = false := by
  rw [← Bool.not_eq_true, hasOverlong_arr_iff]
  rintro ⟨item, hitem, hlong⟩
  rw [h item hitem] at hlong
  cases hlong

theorem indented_of_hasOverlong_eq_false {value : Json} (h : value.hasOverlong = false) :
    value.indented = .ok (writeAt (some 2) 0 value) := by
  rw [indented, h]
  rfl

end Json

-- ---------------------------------------------------------------------------
-- Places
-- ---------------------------------------------------------------------------

/-- The coordinates of the position are at most `n`. -/
structure Position.Within (n : Nat) (p : Position) : Prop where
  line : p.line.natAbs ≤ n
  column : p.column.natAbs ≤ n
  offset : p.offset.natAbs ≤ n

/-- The coordinates of the range are at most `n`. -/
structure Range.Within (n : Nat) (r : Range) : Prop where
  start : r.start.Within n
  stop : r.stop.Within n

theorem Position.Within.mono {m n : Nat} {p : Position} (h : p.Within m) (hle : m ≤ n) :
    p.Within n :=
  ⟨h.line.trans hle, h.column.trans hle, h.offset.trans hle⟩

theorem Range.Within.mono {m n : Nat} {r : Range} (h : r.Within m) (hle : m ≤ n) : r.Within n :=
  ⟨h.start.mono hle, h.stop.mono hle⟩

section Places

variable {n : Nat} (hn : n < 10 ^ Decimal.maxDigits)

include hn

theorem Position.Within.hasOverlong_toJson {p : Position} (h : p.Within n) :
    p.toJson.hasOverlong = false := by
  have hshort {k : Int} (hk : k.natAbs ≤ n) : (Json.int k).hasOverlong = false :=
    Decimal.isOverlong_eq_false (Nat.lt_of_le_of_lt hk hn)
  refine Json.hasOverlong_object_eq_false ?_
  simp only [List.forall_mem_cons]
  exact ⟨hshort h.line, hshort h.column, hshort h.offset, by simp⟩

theorem Range.Within.hasOverlong_toJson {r : Range} (h : r.Within n) :
    r.toJson.hasOverlong = false := by
  refine Json.hasOverlong_object_eq_false ?_
  simp only [List.forall_mem_cons]
  exact ⟨h.start.hasOverlong_toJson hn, h.stop.hasOverlong_toJson hn, by simp⟩

theorem Diagnostic.hasOverlong_toJson {d : Diagnostic} (h : d.range.Within n) :
    d.toJson.hasOverlong = false := by
  have hrange := h.hasOverlong_toJson hn
  unfold toJson
  cases d.hint? with
  | none =>
    refine Json.hasOverlong_object_eq_false ?_
    simp [hrange]
  | some hint =>
    refine Json.hasOverlong_object_eq_false ?_
    simp [hrange]

theorem Label.Table.hasOverlong_toJson {table : Label.Table}
    (h : ∀ label ∈ table, label.range.Within n) : table.toJson.hasOverlong = false := by
  refine Json.hasOverlong_object_eq_false fun field hfield => ?_
  obtain ⟨label, hlabel, rfl⟩ := List.mem_map.mp hfield
  exact (h label hlabel).hasOverlong_toJson hn

end Places

-- ---------------------------------------------------------------------------
-- Tokens
-- ---------------------------------------------------------------------------

namespace Token

/-- The integers of the attribute are at most `n`, unless it is the value of a literal. -/
def Attribute.Within (n : Nat) : Attribute → Prop
  | .bitWidth bits => ∀ b ∈ bits, b ≤ n
  | .declaration r => r.Within n
  | .other _ _ => False
  | _ => True

/-- The integers of the token are at most `n`, unless they are values of literals. -/
structure Within (n : Nat) (t : Token) : Prop where
  range : t.range.Within n
  attributes : ∀ a ∈ t.attributes, a.Within n

/-- The token has the value of a literal that has no decimal text within the bound. -/
def HasLongValue (t : Token) : Prop :=
  ∃ v, .integerValue v ∈ t.attributes ∧ Decimal.isOverlong v = true

variable {n : Nat} (hn : n < 10 ^ Decimal.maxDigits)

include hn

theorem Attribute.Within.hasOverlong_toJson_iff {a : Attribute} (h : a.Within n) :
    a.toJson.hasOverlong = true ↔ ∃ v, a = .integerValue v ∧ Decimal.isOverlong v = true := by
  cases a with
  | integerValue v => simp [toJson]
  | bitWidth bits =>
    cases bits with
    | none => simp [toJson]
    | some b =>
      have hb : ((b : Int)).natAbs < 10 ^ Decimal.maxDigits := by
        rw [Int.natAbs_natCast]
        exact Nat.lt_of_le_of_lt (h b rfl) hn
      simp [toJson, Decimal.isOverlong_eq_false hb]
  | declaration r => simp [toJson, Range.Within.hasOverlong_toJson hn h]
  | other key value => exact h.elim
  | _ => simp [toJson]

/-- A token can be written unless the value of a literal is too long. -/
theorem Within.hasOverlong_toJson_iff {t : Token} (h : t.Within n) :
    t.toJson.hasOverlong = true ↔ t.HasLongValue := by
  have hrange := h.range.hasOverlong_toJson hn
  have hattributes : (Json.object (t.attributes.map fun a => (a.key, a.toJson))).hasOverlong = true ↔
      t.HasLongValue := by
    rw [Json.hasOverlong_object_iff]
    constructor
    · rintro ⟨field, hfield, hlong⟩
      obtain ⟨a, ha, rfl⟩ := List.mem_map.mp hfield
      obtain ⟨v, rfl, hv⟩ := ((h.attributes a ha).hasOverlong_toJson_iff hn).mp hlong
      exact ⟨v, ha, hv⟩
    · rintro ⟨v, hmem, hv⟩
      exact ⟨_, List.mem_map_of_mem hmem, hv⟩
  unfold toJson
  split
  next hnone =>
    have hempty : ¬ t.HasLongValue := by
      rintro ⟨v, hmem, _⟩
      rw [List.isEmpty_iff.mp hnone] at hmem
      cases hmem
    simp only [Json.hasOverlong_object_iff, hempty]
    simp [hrange]
  next =>
    rw [← hattributes]
    generalize Json.object (t.attributes.map fun a => (a.key, a.toJson)) = metadata
    simp [Json.hasOverlong_object_iff, hrange]

end Token

-- ---------------------------------------------------------------------------
-- Streams
-- ---------------------------------------------------------------------------

/-- The integers of the stream are at most `n`, unless they are values of literals. -/
structure Stream.Within (n : Nat) (s : Stream) : Prop where
  version : s.version.hasOverlong = false
  tokens : ∀ t ∈ s.tokens, t.Within n
  diagnostics : ∀ d ∈ s.diagnostics, d.range.Within n
  labels : ∀ label ∈ s.labels, label.range.Within n
  dropped : s.dropped.natAbs ≤ n

/-- A stream can be written unless the value of a literal is too long. -/
theorem Stream.hasOverlong_toJson_iff {n : Nat} {s : Stream} (h : s.Within n)
    (hn : n < 10 ^ Decimal.maxDigits) :
    s.toJson.hasOverlong = true ↔ ∃ t ∈ s.tokens, t.HasLongValue := by
  have hdiagnostics : (Json.arr (s.diagnostics.map Diagnostic.toJson)).hasOverlong = false := by
    refine Json.hasOverlong_arr_eq_false fun item hitem => ?_
    obtain ⟨d, hd, rfl⟩ := List.mem_map.mp hitem
    exact Diagnostic.hasOverlong_toJson hn (h.diagnostics d hd)
  have hlabels := Label.Table.hasOverlong_toJson hn h.labels
  have hdropped := Decimal.isOverlong_eq_false (Nat.lt_of_le_of_lt h.dropped hn)
  have htokens : (Json.arr (s.tokens.map Token.toJson)).hasOverlong = true ↔
      ∃ t ∈ s.tokens, t.HasLongValue := by
    rw [Json.hasOverlong_arr_iff]
    constructor
    · rintro ⟨item, hitem, hlong⟩
      obtain ⟨t, ht, rfl⟩ := List.mem_map.mp hitem
      exact ⟨t, ht, ((h.tokens t ht).hasOverlong_toJson_iff hn).mp hlong⟩
    · rintro ⟨t, ht, hlong⟩
      exact ⟨_, List.mem_map_of_mem ht, ((h.tokens t ht).hasOverlong_toJson_iff hn).mpr hlong⟩
  rw [← htokens, toJson, Json.hasOverlong_object_iff]
  simp only [List.exists_mem_cons_iff, h.version, hdiagnostics, hlabels, Json.hasOverlong_int,
    hdropped, Bool.false_eq_true, false_or, List.not_mem_nil, false_and, exists_false, or_false]

end AsmHighlight
