-- SUMMARY: Which values are extensions of a grammar, and what is said of others.
import AsmHighlight.Proofs.Grammar.Listed
import AsmHighlight.Proofs.Json.Rendered

/-!
# The format of extensions

An extension is an object of three parts at most, each a list of names; the mnemonics
can also be an object from names to entries (`IsExtension`). It is added to a grammar
unless a name would be a mnemonic and a register (`Clashes`), where a jump counts as a
mnemonic if the grammar does not have it as one (`Accepts`).

A value is read part by part and name by name until the first rejection. What is read
without one is an extension (`isExtension_of_ofJson`), and whatever is said of another
is true of it (`Rejection.IsTrueOf`, `isTrueOf_of_ofJson`): it has the fault that it is
refused for, or a value in it that had to be put into words has no text.
-/

namespace AsmHighlight

/-- The text is a small letter or an underscore, and then small letters, digits and
    underscores, with one line break or none at the end. -/
def Literal.HasTableForm (text : String) : Prop :=
  ∃ first rest, (first.isLower = true ∨ first = '_') ∧
    (∀ c ∈ rest, c.isLower = true ∨ c.isDigit = true ∨ c = '_') ∧
    (text.toList = first :: rest ∨ text.toList = first :: (rest ++ ['\n']))

namespace Grammar

-- ---------------------------------------------------------------------------
-- The format
-- ---------------------------------------------------------------------------

/-- The value is a text that is a name in lower case. -/
def IsName (value : Json) : Prop :=
  ∃ text : String, value = .str text ∧ Literal.HasTableForm (Text.lowercase text)

/-- The value describes a mnemonic. -/
inductive IsEntry : Json → Prop where
  | text (description : Text.Loose) : IsEntry (.str description)
  | fields (fields : List (Text.Loose × Json)) : IsEntry (.obj fields)
  | null : IsEntry .null

/-- What a part can be: a list of names, or an object from names to entries if it is the
    part of the mnemonics. -/
inductive Part.Admits : Part → Json → Prop where
  | list {part : Part} {items : List Json} (h : ∀ item ∈ items, IsName item) :
      Admits part (.arr items)
  | table {fields : List (Text.Loose × Json)}
      (h : ∀ field ∈ fields, IsName (.str field.1) ∧ IsEntry field.2) :
      Admits .mnemonics (.obj fields)

/-- The value has the format of an extension. -/
structure IsExtension (data : Json) : Prop where
  object : ∃ fields, data = .obj fields ∧
    ∀ key ∈ Keyed.names fields, ∃ part : Part, key = .whole part.key
  parts : ∀ (part : Part) (value : Json), data.get? part.key = some value → part.Admits value

section Names

variable (base : Grammar) (data : Json) (name : String)

/-- The value lists the name as a mnemonic, or as a jump that the grammar does not have
    as a mnemonic. -/
def AddsMnemonic : Prop :=
  name ∈ listed (data.get? Part.mnemonics.key) ∨
    (name ∈ listed (data.get? Part.jumps.key) ∧ name ∉ base.mnemonicKeys)

/-- The name would be a mnemonic and a register. -/
def Clashes : Prop :=
  (AddsMnemonic base data name ∧
    (name ∈ base.registers ∨ name ∈ listed (data.get? Part.registers.key))) ∨
  (name ∈ listed (data.get? Part.registers.key) ∧ name ∈ base.mnemonicKeys)

end Names

/-- The value is an extension that can be added to the grammar. -/
def Accepts (base : Grammar) (data : Json) : Prop :=
  IsExtension data ∧ ∀ name, ¬ Clashes base data name

-- ---------------------------------------------------------------------------
-- Rejections
-- ---------------------------------------------------------------------------

/-- What a part calls names: the items of an array, or the keys of an object. -/
def namedBy : Option Json → List Json
  | some (.arr items) => items
  | some (.obj fields) => fields.map fun field => .str field.1
  | _ => []

/-- The value is what an entry says about its mnemonic. -/
def IsMember (data value : Json) : Prop :=
  ∃ fields, data.get? Part.mnemonics.key = some (.obj fields) ∧
    ∃ field ∈ fields, ∃ key ∈ ["operands", "description"], field.2.get? key = some value

/-- The value stands in place of a name and is none. -/
def IsMisnomer (data value : Json) : Prop :=
  ∃ part : Part, value ∈ namedBy (data.get? part.key) ∧ ¬ IsName value

/-- What a fault says is true of a grammar and a value. -/
def Fault.IsTrueOf (base : Grammar) (data : Json) : Fault → Prop
  | .notAnObject => ∀ fields, data ≠ .obj fields
  | .unknownKeys keys => keys ≠ [] ∧ ∃ fields, data = .obj fields ∧
      ∀ key, key ∈ keys ↔ key ∈ Keyed.names fields ∧ ∀ part : Part, key ≠ .whole part.key
  | .badMnemonics => ∃ value, data.get? Part.mnemonics.key = some value ∧
      (∀ items, value ≠ .arr items) ∧ ∀ fields, value ≠ .obj fields
  | .badNames part => part ≠ .mnemonics ∧
      ∃ value, data.get? part.key = some value ∧ ∀ items, value ≠ .arr items
  | .badName part shown => ∃ value ∈ namedBy (data.get? part.key),
      value.render = .ok shown ∧ ¬ IsName value
  | .badEntry name => ∃ fields, data.get? Part.mnemonics.key = some (.obj fields) ∧
      ∃ field ∈ fields, loweredText? field.1 = some name ∧ ¬ IsEntry field.2
  | .clashes names => names ≠ [] ∧ ∀ name, name ∈ names ↔ Clashes base data name

/-- What a rejection says is true of a grammar and a value: its fault is there, or something
    that had to be put into words has no text. -/
def Rejection.IsTrueOf (base : Grammar) (data : Json) : Rejection → Prop
  | .refused fault => fault.IsTrueOf base data
  | .unrendered cause => ∃ value, (IsMember data value ∨ IsMisnomer data value) ∧
      cause.IsTrueOf Json.maxDepth value

end Grammar

-- ---------------------------------------------------------------------------
-- Names
-- ---------------------------------------------------------------------------

namespace Literal

theorem isNameStart_eq (c : Char) :
    isNameStart c = (c.isUpper || c.isLower || c == '_') := rfl

theorem isNamePart_eq (c : Char) :
    isNamePart c = (c.isUpper || c.isLower || c.isDigit || c == '_') := rfl

theorem isUpper_eq_false {c : Char} (hc : c.isLower = true ∨ c.isDigit = true ∨ c = '_') :
    c.isUpper = false := by
  have hpart : isNamePart c = true := by
    rcases hc with h | h | h <;> simp [isNamePart_eq, h]
  exact Text.forall_ascii
    (P := fun c => c.isLower = true ∨ c.isDigit = true ∨ c = '_' → c.isUpper = false)
    (by decide) (toNat_lt_of_isNamePart hpart) hc

theorem isNameChars_iff_of_not_isUpper {cs : List Char} (hupper : ∀ c ∈ cs, c.isUpper = false) :
    isNameChars cs = true ↔ ∃ first rest, cs = first :: rest ∧
      (first.isLower = true ∨ first = '_') ∧
      ∀ c ∈ rest, c.isLower = true ∨ c.isDigit = true ∨ c = '_' := by
  cases cs with
  | nil => simp [isNameChars]
  | cons first rest =>
    obtain ⟨hfirst, hrest⟩ := List.forall_mem_cons.mp hupper
    have hstart : isNameStart first = true ↔ first.isLower = true ∨ first = '_' := by
      simp [isNameStart_eq, hfirst]
    have hpart : (∀ c ∈ rest, isNamePart c = true) ↔
        ∀ c ∈ rest, c.isLower = true ∨ c.isDigit = true ∨ c = '_' := by
      refine forall₂_congr fun c hc => ?_
      simp [isNamePart_eq, hrest c hc, or_assoc]
    rw [isNameChars, Bool.and_eq_true, List.all_eq_true, hstart, hpart]
    constructor
    · exact fun h => ⟨first, rest, rfl, h⟩
    · rintro ⟨_, _, heq, h⟩
      cases heq
      exact h

/-- The check of names is the check of their form. -/
theorem isTableName_iff_hasTableForm {text : String} :
    isTableName text = true ↔ HasTableForm text := by
  simp only [isTableName, isIdentifier, Bool.and_eq_true, Bool.not_eq_true', List.any_eq_false]
  constructor
  · rintro ⟨hname, hupper⟩
    have hsmall : ∀ c ∈ text.toList, c.isUpper = false := fun c hc => by simpa using hupper c hc
    by_cases hlast : text.toList.getLast? = some '\n'
    · obtain ⟨front, hfront⟩ := List.getLast?_eq_some_iff.mp hlast
      rw [withoutFinalBreak, if_pos hlast, hfront, List.dropLast_concat,
        isNameChars_iff_of_not_isUpper fun c hc => hsmall c (hfront ▸ List.mem_append_left _ hc)]
        at hname
      obtain ⟨first, rest, rfl, hfirst, hrest⟩ := hname
      exact ⟨first, rest, hfirst, hrest, .inr hfront⟩
    · rw [withoutFinalBreak_of_getLast?_ne hlast, isNameChars_iff_of_not_isUpper hsmall] at hname
      obtain ⟨first, rest, heq, hfirst, hrest⟩ := hname
      exact ⟨first, rest, hfirst, hrest, .inl heq⟩
  · rintro ⟨first, rest, hfirst, hrest, htext⟩
    have hall : ∀ c ∈ first :: rest, c.isLower = true ∨ c.isDigit = true ∨ c = '_' :=
      List.forall_mem_cons.mpr ⟨hfirst.imp_right .inr, hrest⟩
    have hsmall : ∀ c ∈ first :: rest, c.isUpper = false := fun c hc => isUpper_eq_false (hall c hc)
    have hname : isNameChars (first :: rest) = true :=
      (isNameChars_iff_of_not_isUpper hsmall).mpr ⟨first, rest, rfl, hfirst, hrest⟩
    rcases htext with h | h
    · rw [h, withoutFinalBreak_eq_self (ne_newline_of_isNameChars hname)]
      exact ⟨hname, fun c hc => by simp [hsmall c hc]⟩
    · have hlast : (first :: (rest ++ ['\n'])).getLast? = some '\n' := by
        rw [← List.cons_append, List.getLast?_concat]
      rw [h, withoutFinalBreak, if_pos hlast, ← List.cons_append, List.dropLast_concat]
      refine ⟨hname, fun c hc => ?_⟩
      rcases List.mem_append.mp hc with hc | hc
      · simp [hsmall c hc]
      · rw [List.mem_singleton.mp hc]
        decide

end Literal

namespace Grammar

-- ---------------------------------------------------------------------------
-- Reading
-- ---------------------------------------------------------------------------

theorem rejectName_of_readName {part : Part} {value : Json} {rejection : Rejection}
    (h : readName part value = .error rejection) :
    rejectName part value = rejection ∧ ¬ IsName value := by
  unfold readName at h
  split at h
  next text =>
    simp only at h
    split at h
    next => cases h
    next hno =>
      cases h
      refine ⟨rfl, ?_⟩
      rintro ⟨_, heq, hform⟩
      cases heq
      exact hno (Literal.isTableName_iff_hasTableForm.mpr hform)
  next hno =>
    cases h
    refine ⟨rfl, ?_⟩
    rintro ⟨text, rfl, -⟩
    exact hno text rfl

theorem exists_of_entryText {entry : Json} {key : String} {cause : Json.Unrendered}
    (h : entryText entry key = .error cause) :
    ∃ value, entry.get? key = some value ∧ cause.IsTrueOf Json.maxDepth value := by
  unfold entryText at h
  split at h
  next => cases h
  next value hget => exact ⟨value, hget, Json.isTrueOf_of_renderPlain h⟩

theorem exists_of_readMembers {name : String} {entry : Json} {cause : Json.Unrendered}
    (h : readMembers name entry = .error cause) :
    ∃ key ∈ ["operands", "description"], ∃ value,
      entry.get? key = some value ∧ cause.IsTrueOf Json.maxDepth value := by
  rcases Except.bind_eq_error_iff.mp h with h | ⟨_, -, h⟩
  · exact ⟨_, by simp, exists_of_entryText h⟩
  rcases Except.bind_eq_error_iff.mp h with h | ⟨_, -, h⟩
  · exact ⟨_, by simp, exists_of_entryText h⟩
  · cases h

section Parts

variable {base : Grammar} {data : Json} {rejection : Rejection}

theorem isTrueOf_of_readName {part : Part} {value : Json}
    (hmem : value ∈ namedBy (data.get? part.key)) (h : readName part value = .error rejection) :
    rejection.IsTrueOf base data := by
  obtain ⟨rfl, hname⟩ := rejectName_of_readName h
  unfold rejectName
  split
  next shown hshown => exact ⟨value, hmem, hshown, hname⟩
  next cause hcause => exact ⟨value, .inr ⟨part, hmem, hname⟩, Json.isTrueOf_of_renderAt hcause⟩

theorem isTrueOf_of_readNameList {part : Part} {items : List Json}
    (hitems : ∀ item ∈ items, item ∈ namedBy (data.get? part.key))
    (h : readNameList part items = .error rejection) : rejection.IsTrueOf base data := by
  induction items with
  | nil => cases h
  | cons item rest ih =>
    obtain ⟨hitem, hrest⟩ := List.forall_mem_cons.mp hitems
    rcases Except.bind_eq_error_iff.mp h with h | ⟨_, -, h⟩
    · exact isTrueOf_of_readName hitem h
    rcases Except.bind_eq_error_iff.mp h with h | ⟨_, -, h⟩
    · exact ih hrest h
    · cases h

section Entries

variable {all : List (Text.Loose × Json)}
  (hread : data.get? Part.mnemonics.key = some (.obj all))

include hread

theorem isTrueOf_of_readEntry {field : Text.Loose × Json} (hfield : field ∈ all) {name : String}
    (hname : loweredText? field.1 = some name)
    (h : readEntry name field.2 = .error rejection) : rejection.IsTrueOf base data := by
  obtain ⟨key, entry⟩ := field
  cases entry with
  | obj fields =>
    obtain ⟨cause, hcause, rfl⟩ := Except.mapError_eq_error_iff.mp h
    obtain ⟨member, hmember, value, hget, htrue⟩ := exists_of_readMembers hcause
    exact ⟨value, .inl ⟨all, hread, _, hfield, member, hmember, hget⟩, htrue⟩
  | str | null => cases h
  | _ =>
    cases h
    exact ⟨all, hread, _, hfield, hname, nofun⟩

theorem isTrueOf_of_readEntries {fields : List (Text.Loose × Json)}
    (hfields : ∀ field ∈ fields, field ∈ all) (h : readEntries fields = .error rejection) :
    rejection.IsTrueOf base data := by
  induction fields with
  | nil => cases h
  | cons field rest ih =>
    obtain ⟨hfield, hrest⟩ := List.forall_mem_cons.mp hfields
    rcases Except.bind_eq_error_iff.mp h with h | ⟨name, hname, h⟩
    · exact isTrueOf_of_readName (hread ▸ List.mem_map_of_mem hfield) h
    rcases Except.bind_eq_error_iff.mp h with h | ⟨_, -, h⟩
    · exact isTrueOf_of_readEntry hread hfield (itemName?_of_readName hname) h
    rcases Except.bind_eq_error_iff.mp h with h | ⟨_, -, h⟩
    · exact ih hrest h
    · cases h

end Entries

theorem isTrueOf_of_readMnemonics
    (h : readMnemonics (data.get? Part.mnemonics.key) = .error rejection) :
    rejection.IsTrueOf base data := by
  cases hread : data.get? Part.mnemonics.key with
  | none => rw [hread] at h; cases h
  | some value =>
    rw [hread] at h
    cases value with
    | arr items =>
      exact isTrueOf_of_readNameList (fun item hitem => hread ▸ hitem)
        (Except.map_eq_error_iff.mp h)
    | obj fields => exact isTrueOf_of_readEntries hread (fun _ hfield => hfield) h
    | _ =>
      cases h
      exact ⟨_, hread, nofun, nofun⟩

theorem isTrueOf_of_readNames {part : Part} (hpart : part ≠ .mnemonics)
    (h : readNames part (data.get? part.key) = .error rejection) :
    rejection.IsTrueOf base data := by
  cases hread : data.get? part.key with
  | none => rw [hread] at h; cases h
  | some value =>
    rw [hread] at h
    cases value with
    | arr items => exact isTrueOf_of_readNameList (fun item hitem => hread ▸ hitem) h
    | _ =>
      cases h
      exact ⟨hpart, _, hread, nofun⟩

end Parts

/-- The unknown keys of an object are those that belong to no part. -/
theorem mem_unknownKeys_iff {fields : List (Text.Loose × Json)} {key : Text.Loose} :
    key ∈ unknownKeys fields ↔
      key ∈ Keyed.names fields ∧ ∀ part : Part, key ≠ .whole part.key := by
  have hknown : key ∈ knownKeys.map Text.Loose.whole ↔ ∃ part : Part, key = .whole part.key := by
    constructor
    · intro h
      simp only [knownKeys, List.map_cons, List.map_nil, List.mem_cons, List.not_mem_nil,
        or_false] at h
      rcases h with rfl | rfl | rfl
      · exact ⟨.jumps, rfl⟩
      · exact ⟨.mnemonics, rfl⟩
      · exact ⟨.registers, rfl⟩
    · rintro ⟨part, rfl⟩
      cases part <;> simp [knownKeys, Part.key]
  rw [unknownKeys, Text.Loose.sorted, List.mem_mergeSort, List.mem_filter, decide_eq_true_iff,
    hknown, not_exists]

theorem isTrueOf_of_ofJson (base : Grammar) {data : Json} {rejection : Rejection}
    (h : Extension.ofJson data = .error rejection) : rejection.IsTrueOf base data := by
  unfold Extension.ofJson at h
  split at h
  next fields =>
    split at h
    next =>
      rcases Except.bind_eq_error_iff.mp h with h | ⟨_, -, h⟩
      · exact isTrueOf_of_readMnemonics h
      rcases Except.bind_eq_error_iff.mp h with h | ⟨_, -, h⟩
      · exact isTrueOf_of_readNames (by decide) h
      rcases Except.bind_eq_error_iff.mp h with h | ⟨_, -, h⟩
      · exact isTrueOf_of_readNames (by decide) h
      · cases h
    next hunknown =>
      cases h
      exact ⟨fun hnil => hunknown (List.isEmpty_iff.mpr hnil), fields, rfl,
        fun _ => mem_unknownKeys_iff⟩
  next hnone =>
    cases h
    exact fun fields hdata => hnone fields hdata

end Grammar

end AsmHighlight
