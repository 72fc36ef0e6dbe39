-- SUMMARY: Tables of named entries that keep the order in which names first appeared.

/-!
# Keyed tables

A table is a list of pairs of a name and a value; names are of any type with
decidable equality. Storing under a name that is
already present replaces the value and keeps the place; a new name goes to the
end. So the order of a table is the order in which its names first appeared.
-/

namespace AsmHighlight.Keyed

variable [DecidableEq κ]

/-- The value stored under a name. -/
def get? (table : List (κ × α)) (name : κ) : Option α :=
  match table with
  | [] => none
  | (key, value) :: rest => if key = name then some value else get? rest name

/-- Stores a value: in place of the old one, or at the end under a new name. -/
def put (table : List (κ × α)) (name : κ) (value : α) : List (κ × α) :=
  match table with
  | [] => [(name, value)]
  | (key, old) :: rest =>
    if key = name then (key, value) :: rest else (key, old) :: put rest name value

def names (table : List (κ × α)) : List κ :=
  table.map Prod.fst

/-- Adds a name to a list that holds each name once. -/
def addName (known : List κ) (name : κ) : List κ :=
  if name ∈ known then known else known ++ [name]

-- ---------------------------------------------------------------------------
-- Laws
-- ---------------------------------------------------------------------------

@[simp] theorem get?_nil (name : κ) : get? ([] : List (κ × α)) name = none := rfl

/-- What was stored last is found. -/
@[simp] theorem get?_put_self (table : List (κ × α)) (name : κ) (value : α) :
    get? (put table name value) name = some value := by
  induction table with
  | nil => simp [put, get?]
  | cons entry rest ih =>
    obtain ⟨key, old⟩ := entry
    by_cases h : key = name <;> simp [put, get?, h, ih]

/-- Storing under one name leaves the others as they were. -/
theorem get?_put_of_ne (table : List (κ × α)) {name other : κ} (value : α)
    (h : name ≠ other) : get? (put table name value) other = get? table other := by
  induction table with
  | nil => simp [put, get?, h]
  | cons entry rest ih =>
    obtain ⟨key, old⟩ := entry
    by_cases hk : key = name
    · simp [put, get?, hk, h]
    · by_cases ho : key = other
      · simp [put, get?, hk, ← ho]
      · simp [put, get?, hk, ho, ih]

/-- A table's names after storing: unchanged, or with the new name at the end. -/
theorem names_put (table : List (κ × α)) (name : κ) (value : α) :
    names (put table name value) = addName (names table) name := by
  induction table with
  | nil => simp [put, names, addName]
  | cons entry rest ih =>
    obtain ⟨key, old⟩ := entry
    by_cases hk : key = name
    · simp [put, names, addName, hk]
    · have hn : name ≠ key := fun h => hk h.symm
      simp only [put, hk, if_false]
      simp only [names, List.map_cons] at ih ⊢
      rw [ih]
      by_cases hm : name ∈ List.map Prod.fst rest <;> simp [addName, hm, hn]

end AsmHighlight.Keyed
