-- SUMMARY: File paths, their components and their normal form.

/-!
# Paths

A path is a list of components between slashes. The normal form drops empty
components and single points; a component of two points stays, because the
directory before it may be a link. A path without components is written as a
single point. Two slashes at the start, and no more, are kept as they are.
-/

namespace AsmHighlight.File

/-- The pieces of a text between slashes. -/
def splitSlashes : List Char → List (List Char)
  | [] => [[]]
  | c :: rest =>
    if c = '/' then [] :: splitSlashes rest
    else
      match splitSlashes rest with
      | [] => [[c]]
      | piece :: more => (c :: piece) :: more

/-- The components of a path, empty ones included. -/
def pieces (path : String) : List String :=
  (splitSlashes path.toList).map String.ofList

/-- The components that a path in normal form keeps. -/
def components (path : String) : List String :=
  (pieces path).filter fun piece => piece ≠ "" && piece ≠ "."

/-- The slashes that a path in normal form starts with. -/
def root (path : String) : String :=
  match path.toList with
  | '/' :: '/' :: '/' :: _ => "/"
  | '/' :: '/' :: _ => "//"
  | '/' :: _ => "/"
  | _ => ""

def normalize (path : String) : String :=
  let normal := root path ++ String.intercalate "/" (components path)
  if normal = "" then "." else normal

/-- The path has a null character, which no system takes. -/
def hasNull (path : String) : Bool :=
  decide ('\x00' ∈ path.toList)

-- ---------------------------------------------------------------------------
-- Laws
-- ---------------------------------------------------------------------------

theorem mem_splitSlashes_iff {c : Char} (hc : c ≠ '/') {cs : List Char} :
    (∃ piece ∈ splitSlashes cs, c ∈ piece) ↔ c ∈ cs := by
  induction cs with
  | nil => simp [splitSlashes]
  | cons d rest ih =>
    rw [splitSlashes]
    split
    next hd => simp [ih, hd, hc]
    next =>
      rw [List.mem_cons, ← ih]
      split
      next hnil => simp [hnil]
      next piece more hcons => simp [hcons, or_assoc]

theorem mem_intercalate_iff {c : Char} (hc : c ≠ '/') {parts : List String} :
    c ∈ (String.intercalate "/" parts).toList ↔ ∃ part ∈ parts, c ∈ part.toList := by
  induction parts with
  | nil => simp
  | cons part rest ih =>
    cases rest with
    | nil => simp
    | cons next rest =>
      rw [String.intercalate_cons_cons, String.toList_append, String.toList_append,
        List.mem_append, List.mem_append, ih]
      simp [hc]

theorem normalize_ne_empty (path : String) : normalize path ≠ "" := by
  unfold normalize
  simp only
  split
  next => decide
  next h => exact h

theorem null_notMem_root (path : String) : '\x00' ∉ (root path).toList := by
  unfold root
  split <;> decide

/-- Of a piece that is dropped nothing is lost but points. -/
theorem mem_components_iff {c : Char} (hc : c ≠ '.') {path : String} :
    (∃ part ∈ components path, c ∈ part.toList) ↔ ∃ piece ∈ pieces path, c ∈ piece.toList := by
  constructor
  · rintro ⟨part, hpart, hmem⟩
    exact ⟨part, (List.mem_filter.mp hpart).1, hmem⟩
  · rintro ⟨piece, hpiece, hmem⟩
    refine ⟨piece, List.mem_filter.mpr ⟨hpiece, ?_⟩, hmem⟩
    rw [Bool.and_eq_true, decide_eq_true_eq, decide_eq_true_eq]
    constructor
    · rintro rfl
      cases hmem
    · rintro rfl
      exact hc (List.mem_singleton.mp hmem)

/-- The normal form has a null character exactly if the path has one. -/
theorem hasNull_normalize (path : String) : hasNull (normalize path) = hasNull path := by
  have hpieces : (∃ piece ∈ pieces path, '\x00' ∈ piece.toList) ↔ '\x00' ∈ path.toList := by
    rw [← mem_splitSlashes_iff (by decide), pieces]
    constructor
    · rintro ⟨_, hpiece, hmem⟩
      obtain ⟨chars, hchars, rfl⟩ := List.mem_map.mp hpiece
      rw [String.toList_ofList] at hmem
      exact ⟨chars, hchars, hmem⟩
    · rintro ⟨chars, hchars, hmem⟩
      refine ⟨_, List.mem_map_of_mem hchars, ?_⟩
      rwa [String.toList_ofList]
  have hnormal : '\x00' ∈ (root path ++ String.intercalate "/" (components path)).toList ↔
      '\x00' ∈ path.toList := by
    rw [String.toList_append, List.mem_append, mem_intercalate_iff (by decide),
      mem_components_iff (by decide), hpieces, or_iff_right (null_notMem_root path)]
  unfold normalize
  simp only
  split
  next hempty =>
    rw [hempty] at hnormal
    simpa [hasNull] using hnormal
  next => simpa only [hasNull, decide_eq_decide] using hnormal

end AsmHighlight.File
