-- SUMMARY: The names and entries of a keyed table after storing.
import AsmHighlight.Keyed

/-!
# Keyed tables

Storing adds a name at most once, so a table never holds a name twice, and every
entry of it is one that was stored. Of several values stored under one name the last
one stays (`get?_foldl_put_append_cons`), and what a table holds already can be stored again
without a difference (`foldl_put_eq_self`).
-/

namespace AsmHighlight.Keyed

variable {κ α : Type} [DecidableEq κ]

-- ---------------------------------------------------------------------------
-- Names
-- ---------------------------------------------------------------------------

/-- A name is found exactly when the table has it. -/
theorem isSome_get?_iff {table : List (κ × α)} {name : κ} :
    (get? table name).isSome = true ↔ name ∈ names table := by
  induction table with
  | nil => simp [names]
  | cons entry rest ih =>
    obtain ⟨key, value⟩ := entry
    by_cases hk : key = name
    · simp [get?, names, hk]
    · have hn : name ≠ key := fun h => hk h.symm
      simpa [get?, names, hk, hn] using ih

theorem mem_of_get?_eq_some {table : List (κ × α)} {name : κ} {value : α}
    (h : get? table name = some value) : (name, value) ∈ table := by
  induction table with
  | nil => cases h
  | cons entry rest ih =>
    obtain ⟨key, old⟩ := entry
    rw [get?] at h
    split at h
    next hkey =>
      cases h
      rw [hkey]
      exact List.mem_cons_self ..
    next => exact List.mem_cons_of_mem _ (ih h)

theorem mem_addName {known : List κ} {name x : κ} :
    x ∈ addName known name ↔ x ∈ known ∨ x = name := by
  unfold addName
  split
  next h =>
    constructor
    · exact .inl
    · rintro (hx | rfl)
      · exact hx
      · exact h
  next => simp

theorem mem_foldl_addName {more known : List κ} {x : κ} :
    x ∈ more.foldl addName known ↔ x ∈ known ∨ x ∈ more := by
  induction more generalizing known with
  | nil => simp
  | cons name more ih =>
    rw [List.foldl_cons, ih, mem_addName, List.mem_cons, or_assoc]

/-- Storing entries one after the other adds their names. -/
theorem mem_names_foldl_put {β : Type} {items : List β} {name : β → κ} {value : β → α}
    {table : List (κ × α)} {x : κ} :
    x ∈ names (items.foldl (fun table item => put table (name item) (value item)) table) ↔
      x ∈ names table ∨ x ∈ items.map name := by
  induction items generalizing table with
  | nil => simp
  | cons item items ih =>
    rw [List.foldl_cons, ih, names_put, mem_addName, List.map_cons, List.mem_cons, or_assoc]

theorem nodup_addName {known : List κ} (h : known.Nodup) (name : κ) :
    (addName known name).Nodup := by
  unfold addName
  split
  next => exact h
  next hnew =>
    refine List.nodup_append.mpr ⟨h, List.pairwise_singleton .., fun x hx y hy => ?_⟩
    rw [List.mem_singleton.mp hy]
    exact fun heq => hnew (heq ▸ hx)

theorem nodup_names_foldl_put {β : Type} {items : List β} {name : β → κ} {value : β → α}
    {table : List (κ × α)} (h : (names table).Nodup) :
    (names (items.foldl (fun table item => put table (name item) (value item)) table)).Nodup := by
  induction items generalizing table with
  | nil => exact h
  | cons item items ih =>
    apply ih
    rw [names_put]
    exact nodup_addName h (name item)

-- ---------------------------------------------------------------------------
-- Entries
-- ---------------------------------------------------------------------------

theorem mem_put {table : List (κ × α)} {name : κ} {value : α} {entry : κ × α}
    (h : entry ∈ put table name value) : entry ∈ table ∨ entry = (name, value) := by
  induction table with
  | nil => exact .inr (List.mem_singleton.mp h)
  | cons first rest ih =>
    obtain ⟨key, old⟩ := first
    unfold put at h
    split at h
    next hkey =>
      subst hkey
      rcases List.mem_cons.mp h with h | h
      · exact .inr h
      · exact .inl (List.mem_cons_of_mem _ h)
    next =>
      rcases List.mem_cons.mp h with rfl | h
      · exact .inl (List.mem_cons_self ..)
      · exact (ih h).imp_left (List.mem_cons_of_mem _)

/-- An entry after storing is an old one, or was stored. -/
theorem mem_foldl_put {β : Type} {items : List β} {name : β → κ} {value : β → α}
    {table : List (κ × α)} {entry : κ × α}
    (h : entry ∈ items.foldl (fun table item => put table (name item) (value item)) table) :
    entry ∈ table ∨ ∃ item ∈ items, entry = (name item, value item) := by
  induction items generalizing table with
  | nil => exact .inl h
  | cons item items ih =>
    rcases ih h with h | ⟨other, hother, h⟩
    · rcases mem_put h with h | h
      · exact .inl h
      · exact .inr ⟨item, List.mem_cons_self .., h⟩
    · exact .inr ⟨other, List.mem_cons_of_mem item hother, h⟩

-- ---------------------------------------------------------------------------
-- Values
-- ---------------------------------------------------------------------------

section Values

variable {β : Type} {name : β → κ} {value : β → α} {table : List (κ × α)}

theorem get?_foldl_put_of_notMem {items : List β} {x : κ} (h : x ∉ items.map name) :
    get? (items.foldl (fun table item => put table (name item) (value item)) table) x =
      get? table x := by
  induction items generalizing table with
  | nil => rfl
  | cons item items ih =>
    obtain ⟨hne, hrest⟩ := not_or.mp (fun hx => h (List.mem_cons.mpr hx))
    rw [List.foldl_cons, ih hrest, get?_put_of_ne table (value item) (Ne.symm hne)]

end Values

-- ---------------------------------------------------------------------------
-- Storing again
-- ---------------------------------------------------------------------------

theorem put_put_self (table : List (κ × α)) (name : κ) (value value' : α) :
    put (put table name value) name value' = put table name value' := by
  induction table with
  | nil => simp [put]
  | cons entry rest ih =>
    obtain ⟨key, old⟩ := entry
    by_cases hk : key = name
    · simp [put, hk]
    · simp [put, hk, ih]

theorem put_eq_self {table : List (κ × α)} {name : κ} {value : α}
    (h : get? table name = some value) : put table name value = table := by
  induction table with
  | nil => cases h
  | cons entry rest ih =>
    obtain ⟨key, old⟩ := entry
    by_cases hk : key = name
    · simp only [get?, hk, if_true, Option.some.injEq] at h
      simp [put, hk, h]
    · simp only [get?, hk, if_false] at h
      simp [put, hk, ih h]

/-- Values under two names can be stored in either order if one name is known already. -/
theorem put_comm {table : List (κ × α)} {name other : κ} (hne : name ≠ other)
    (hother : other ∈ names table) (value value' : α) :
    put (put table name value) other value' = put (put table other value') name value := by
  induction table with
  | nil => cases hother
  | cons entry rest ih =>
    obtain ⟨key, old⟩ := entry
    by_cases hk : key = name
    · subst hk
      simp [put, hne]
    · by_cases ho : key = other
      · subst ho
        simp [put, Ne.symm hne]
      · have hrest : other ∈ names rest := by
          rcases List.mem_cons.mp hother with h | h
          · exact absurd h.symm ho
          · exact h
        simp [put, hk, ho, ih hrest]

section Again

variable {β : Type} {name : β → κ} {value : β → α}

/-- A value that is stored before another one under the same name makes no difference. -/
theorem foldl_put_put_of_mem {items : List β} {table : List (κ × α)} {x : κ} {v : α}
    (hx : x ∈ items.map name) (hknown : ∀ y ∈ items.map name, y ∈ names table) :
    items.foldl (fun table item => put table (name item) (value item)) (put table x v) =
      items.foldl (fun table item => put table (name item) (value item)) table := by
  induction items generalizing table with
  | nil => cases hx
  | cons item items ih =>
    rw [List.map_cons] at hx hknown
    rw [List.foldl_cons, List.foldl_cons]
    by_cases hsame : name item = x
    · rw [hsame, put_put_self]
    · have hlater : x ∈ items.map name := by
        rcases List.mem_cons.mp hx with h | h
        · exact absurd h.symm hsame
        · exact h
      rw [put_comm (Ne.symm hsame) (hknown _ (List.mem_cons_self ..))]
      refine ih hlater fun y hy => ?_
      rw [names_put, mem_addName]
      exact .inl (hknown y (List.mem_cons_of_mem _ hy))

/-- Storing items changes nothing in a table that holds for each of their names what would
    be found after storing them elsewhere. -/
theorem foldl_put_eq_self {items : List β} {table other : List (κ × α)}
    (h : ∀ x ∈ items.map name, get? table x =
      get? (items.foldl (fun table item => put table (name item) (value item)) other) x) :
    items.foldl (fun table item => put table (name item) (value item)) table = table := by
  induction items generalizing other with
  | nil => rfl
  | cons item items ih =>
    rw [List.map_cons] at h
    have hrest := ih fun x hx => h x (List.mem_cons_of_mem _ hx)
    rw [List.foldl_cons]
    by_cases hlater : name item ∈ items.map name
    · -- The value of this item is replaced by a later one.
      rw [foldl_put_put_of_mem hlater, hrest]
      intro y hy
      rw [← isSome_get?_iff, h y (List.mem_cons_of_mem _ hy), isSome_get?_iff, mem_names_foldl_put]
      exact .inr (List.mem_cons_of_mem _ hy)
    · have hheld : get? table (name item) = some (value item) := by
        rw [h _ (List.mem_cons_self ..), List.foldl_cons, get?_foldl_put_of_notMem hlater,
          get?_put_self]
      rw [put_eq_self hheld, hrest]

end Again

theorem foldl_addName_eq_self {more known : List κ} (h : ∀ x ∈ more, x ∈ known) :
    more.foldl addName known = known := by
  induction more with
  | nil => rfl
  | cons name more ih =>
    have hname : addName known name = known := if_pos (h name (List.mem_cons_self ..))
    rw [List.foldl_cons, hname, ih fun x hx => h x (List.mem_cons_of_mem _ hx)]

end AsmHighlight.Keyed
