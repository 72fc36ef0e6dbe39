-- SUMMARY: The names that an extension lists, and the words on which it changes nothing.
import AsmHighlight.Proofs.Grammar.Extended

/-!
# Listed names

An extension adds the names that it lists and no others (`listedNames`), although
a jump also becomes a mnemonic and an entry may replace an old one. So a grammar
and its extension tell the same of every word that is not listed
(`agreeOn_of_addJson`), whatever the grammar was before.
-/

namespace AsmHighlight.Grammar

/-- The text in lower case. What is no text is no name. -/
def loweredText? : Text.Loose → Option String
  | .whole text => some (Text.lowercase text)
  | .broken _ => none

/-- The name that an item of an array stands for. -/
def itemName? : Json → Option String
  | .str text => loweredText? text
  | _ => none

/-- The names that a part lists: the items of an array, or the keys of an object. -/
def listed : Option Json → List String
  | some (.arr items) => items.filterMap itemName?
  | some (.obj fields) => fields.filterMap fun field => loweredText? field.1
  | _ => []

/-- The names that a value lists as mnemonics, registers or jumps, in lower case. -/
def listedNames (data : Json) : List String :=
  [Part.mnemonics, .registers, .jumps].flatMap fun part => listed (data.get? part.key)

theorem mem_listedNames {data : Json} {name : String} (part : Part)
    (h : name ∈ listed (data.get? part.key)) : name ∈ listedNames data := by
  refine List.mem_flatMap.mpr ⟨part, ?_, h⟩
  cases part <;> decide

-- ---------------------------------------------------------------------------
-- Reading
-- ---------------------------------------------------------------------------

theorem itemName?_of_readName {part : Part} {value : Json} {name : String}
    (h : readName part value = .ok name) : itemName? value = some name := by
  obtain ⟨text, rfl, rfl, -⟩ := exists_text_of_readName h
  rfl

theorem filterMap_of_readNameList {part : Part} {items : List Json} {names : List String}
    (h : readNameList part items = .ok names) : items.filterMap itemName? = names := by
  induction items generalizing names with
  | nil => cases h; rfl
  | cons item rest ih =>
    obtain ⟨name, hname, h⟩ := Except.bind_eq_ok_iff.mp h
    obtain ⟨more, hmore, h⟩ := Except.bind_eq_ok_iff.mp h
    cases h
    rw [List.filterMap_cons_some (itemName?_of_readName hname), ih hmore]

theorem filterMap_of_readEntries {fields : List (Text.Loose × Json)} {ms : List Mnemonic}
    (h : readEntries fields = .ok ms) :
    fields.filterMap (fun field => loweredText? field.1) = ms.map Mnemonic.name := by
  induction fields generalizing ms with
  | nil => cases h; rfl
  | cons field rest ih =>
    obtain ⟨key, entry⟩ := field
    obtain ⟨name, hname, h⟩ := Except.bind_eq_ok_iff.mp h
    obtain ⟨m, hm, h⟩ := Except.bind_eq_ok_iff.mp h
    obtain ⟨more, hmore, h⟩ := Except.bind_eq_ok_iff.mp h
    cases h
    have hkey : loweredText? key = some m.name := by
      rw [name_of_readEntry hm]
      exact itemName?_of_readName hname
    simp only [List.filterMap_cons, hkey, ih hmore, List.map_cons]

theorem listed_of_readMnemonics {part : Option Json} {ms : List Mnemonic}
    (h : readMnemonics part = .ok ms) : listed part = ms.map Mnemonic.name := by
  unfold readMnemonics at h
  split at h
  next => cases h; rfl
  next items =>
    obtain ⟨names, hnames, rfl⟩ := Except.map_eq_ok_iff.mp h
    rw [listed, filterMap_of_readNameList hnames, List.map_map]
    exact (List.map_id names).symm
  next fields => exact filterMap_of_readEntries h
  next => cases h

theorem listed_of_readNames {part : Part} {value : Option Json} {names : List String}
    (h : readNames part value = .ok names) : listed value = names := by
  unfold readNames at h
  split at h
  next => cases h; rfl
  next items => exact filterMap_of_readNameList h
  next => cases h

/-- What is read from a value are the names that it lists. -/
structure Extension.Lists (ext : Extension) (data : Json) : Prop where
  mnemonics : listed (data.get? Part.mnemonics.key) = ext.mnemonics.map Mnemonic.name
  registers : listed (data.get? Part.registers.key) = ext.registers
  jumps : listed (data.get? Part.jumps.key) = ext.jumps

theorem Extension.lists_of_ofJson {data : Json} {ext : Extension}
    (h : Extension.ofJson data = .ok ext) : ext.Lists data := by
  have hread := Extension.readFrom_of_ofJson h
  exact ⟨listed_of_readMnemonics hread.mnemonics, listed_of_readNames hread.registers,
    listed_of_readNames hread.jumps⟩

/-- A mnemonic that is added is listed, if only as a jump. -/
theorem Extension.Lists.mem_of_allMnemonics {ext : Extension} {data : Json} (h : ext.Lists data)
    {g : Grammar} {name : String} (hname : name ∈ (ext.allMnemonics g).map Mnemonic.name) :
    name ∈ listedNames data := by
  rw [Extension.allMnemonics, List.map_append, map_name_jumpEntry, List.mem_append] at hname
  rcases hname with hname | hname
  · exact mem_listedNames .mnemonics (h.mnemonics ▸ hname)
  · exact mem_listedNames .jumps (h.jumps ▸ (List.mem_filter.mp hname).1)

-- ---------------------------------------------------------------------------
-- Agreement
-- ---------------------------------------------------------------------------

/-- The two grammars tell the same of a word. -/
structure AgreeOn (g g' : Grammar) (caseSensitive : Bool) (word : String) : Prop where
  mnemonic : g'.isMnemonic caseSensitive word = g.isMnemonic caseSensitive word
  register : g'.isRegister caseSensitive word = g.isRegister caseSensitive word
  jump : g'.isJump caseSensitive word = g.isJump caseSensitive word

section Added

variable {g g' : Grammar} {data : Json} (h : g.addJson data = .ok g')

include h

theorem directives_of_addJson : g'.directives = g.directives := by
  obtain ⟨ext, _, _, rfl⟩ := exists_extension_of_addJson h
  rfl

/-- An extension changes nothing for a word that it does not list. -/
theorem agreeOn_of_addJson {caseSensitive : Bool} {word : String}
    (hword : lookupForm caseSensitive word ∉ listedNames data) : AgreeOn g g' caseSensitive word := by
  obtain ⟨ext, hext, _, rfl⟩ := exists_extension_of_addJson h
  have hnamed := Extension.named_of_ofJson hext
  have hlists := Extension.lists_of_ofJson hext
  refine ⟨?_, ?_, ?_⟩
  · rw [Bool.eq_iff_iff, isMnemonic, isMnemonic, Keyed.isSome_get?_iff, Keyed.isSome_get?_iff]
    rw [← mnemonicKeys, mem_mnemonicKeys_extend hnamed]
    exact or_iff_left fun hnew => hword (hlists.mem_of_allMnemonics hnew)
  · rw [Bool.eq_iff_iff, isRegister, isRegister, decide_eq_true_iff, decide_eq_true_iff,
      mem_registers_extend hnamed]
    exact or_iff_left fun hnew => hword (mem_listedNames .registers (hlists.registers ▸ hnew))
  · rw [Bool.eq_iff_iff, isJump, isJump, decide_eq_true_iff, decide_eq_true_iff,
      mem_jumps_extend hnamed]
    exact or_iff_left fun hnew => hword (mem_listedNames .jumps (hlists.jumps ▸ hnew))

end Added

end AsmHighlight.Grammar
