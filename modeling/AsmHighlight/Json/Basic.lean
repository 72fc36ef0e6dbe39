-- SUMMARY: JSON values with ordered objects, and when two are equal.
import AsmHighlight.Decimal.Shortest
import AsmHighlight.Keyed
import AsmHighlight.Text.Loose

/-!
# JSON values

Objects keep the order of their members, and integers are exact. Strings and
keys are loose texts (`AsmHighlight.Text.Loose`). Values may be nested as deep
as one likes; work that goes down into a value stops at `Json.maxDepth`.
-/

namespace AsmHighlight

/-- A JSON value. Each object holds a key once. -/
inductive Json where
  | null
  | bool (value : Bool)
  | int (value : Int)
  | float (value : Decimal.Binary64)
  | str (value : Text.Loose)
  | arr (items : List Json)
  | obj (fields : List (Text.Loose × Json))
  deriving Repr

namespace Json

/-- How many values may be open inside each other while a text is read or a value is
    rendered. -/
def maxDepth : Nat := 990

/-- The object with texts as keys. -/
def object (fields : List (String × Json)) : Json :=
  .obj (fields.map fun (key, value) => (.whole key, value))

/-- The member of an object with the given key. -/
def get? : Json → String → Option Json
  | .obj fields, key => Keyed.get? fields (.whole key)
  | _, _ => none

mutual

/-- Two values are equal member by member, in order. -/
def same : Json → Json → Bool
  | .null, .null => true
  | .bool a, .bool b => a == b
  | .int a, .int b => decide (a = b)
  | .float a, .float b => decide (a = b)
  | .str a, .str b => decide (a = b)
  | .arr a, .arr b => sameItems a b
  | .obj a, .obj b => sameFields a b
  | _, _ => false

/-- Two arrays are equal item by item. -/
def sameItems : List Json → List Json → Bool
  | [], [] => true
  | a :: as, b :: bs => same a b && sameItems as bs
  | _, _ => false

/-- Two objects are equal member by member, in order. -/
def sameFields : List (Text.Loose × Json) → List (Text.Loose × Json) → Bool
  | [], [] => true
  | (k, a) :: as, (l, b) :: bs => decide (k = l) && same a b && sameFields as bs
  | _, _ => false

end

mutual

/-- `same` decides equality of values. -/
theorem same_iff : ∀ a b : Json, same a b = true ↔ a = b
  | .null, b => by cases b <;> simp [same]
  | .bool _, b => by cases b <;> simp [same]
  | .int _, b => by cases b <;> simp [same]
  | .float _, b => by cases b <;> simp [same]
  | .str _, b => by cases b <;> simp [same]
  | .arr as, b => by
    cases b with
    | arr bs => simpa [same] using sameItems_iff as bs
    | _ => simp [same]
  | .obj as, b => by
    cases b with
    | obj bs => simpa [same] using sameFields_iff as bs
    | _ => simp [same]

/-- `sameItems` decides equality of arrays. -/
theorem sameItems_iff : ∀ as bs : List Json, sameItems as bs = true ↔ as = bs
  | [], bs => by cases bs <;> simp [sameItems]
  | a :: as, bs => by
    cases bs with
    | nil => simp [sameItems]
    | cons b bs => simp [sameItems, same_iff a b, sameItems_iff as bs]

/-- `sameFields` decides equality of objects. -/
theorem sameFields_iff : ∀ as bs : List (Text.Loose × Json), sameFields as bs = true ↔ as = bs
  | [], bs => by cases bs <;> simp [sameFields]
  | (k, a) :: as, bs => by
    cases bs with
    | nil => simp [sameFields]
    | cons entry bs =>
      obtain ⟨l, b⟩ := entry
      simp [sameFields, same_iff a b, sameFields_iff as bs, and_assoc]

end

instance : DecidableEq Json := fun a b => decidable_of_iff _ (same_iff a b)

end Json

end AsmHighlight
