-- SUMMARY: The grammars that extensions make, and what holds of all of them.
import AsmHighlight.Grammar.Extension
import AsmHighlight.Proofs.Except
import AsmHighlight.Proofs.Keyed
import AsmHighlight.Proofs.Text.Ascii
import Mathlib.Data.List.Basic

/-!
# Extended grammars

A grammar is extended when it comes from the built-in one by any number of
extensions. Every such grammar is sound (`Extended.sound`): its words are names
in lower case, its jumps are mnemonics, and its directives are the built-in
ones. So a word that the grammar knows starts like a name, never like a
directive, a label or a number (`Sound.unknown_of_head`).
-/

namespace AsmHighlight

namespace Grammar

/-- Grammars that come from the built-in one by extensions. -/
inductive Extended : Grammar → Prop where
  | builtin : Extended .builtin
  | add {g g' : Grammar} {data : Json} (h : Extended g) (hadd : g.addJson data = .ok g') :
      Extended g'

/-- What every extended grammar keeps to. -/
structure Sound (g : Grammar) : Prop where
  mnemonic_names : ∀ key ∈ g.mnemonicKeys, Literal.isTableName key = true
  register_names : ∀ name ∈ g.registers, Literal.isTableName name = true
  jump_mnemonics : ∀ name ∈ g.jumps, name ∈ g.mnemonicKeys
  directives_eq : g.directives = builtinDirectives

-- ---------------------------------------------------------------------------
-- Extensions
-- ---------------------------------------------------------------------------

/-- The names that an extension lists are names in lower case. -/
structure Extension.Named (ext : Extension) : Prop where
  mnemonics : ∀ m ∈ ext.mnemonics, Literal.isTableName m.name = true
  registers : ∀ name ∈ ext.registers, Literal.isTableName name = true
  jumps : ∀ name ∈ ext.jumps, Literal.isTableName name = true

/-- A name is read from a text, which is put in lower case. -/
theorem exists_text_of_readName {part : Part} {value : Json} {name : String}
    (h : readName part value = .ok name) :
    ∃ text : String, value = .str text ∧ Text.lowercase text = name ∧
      Literal.isTableName name = true := by
  unfold readName at h
  split at h
  next text =>
    simp only at h
    split at h
    next hname =>
      cases h
      exact ⟨text, rfl, rfl, hname⟩
    next => cases h
  next => cases h

theorem isTableName_of_readName {part : Part} {value : Json} {name : String}
    (h : readName part value = .ok name) : Literal.isTableName name = true := by
  obtain ⟨_, -, -, hname⟩ := exists_text_of_readName h
  exact hname

theorem isTableName_of_readNameList {part : Part} {values : List Json} {names : List String}
    (h : readNameList part values = .ok names) :
    ∀ name ∈ names, Literal.isTableName name = true := by
  induction values generalizing names with
  | nil => cases h; simp
  | cons value rest ih =>
    obtain ⟨name, hname, h⟩ := Except.bind_eq_ok_iff.mp h
    obtain ⟨more, hmore, h⟩ := Except.bind_eq_ok_iff.mp h
    cases h
    intro x hx
    rcases List.mem_cons.mp hx with rfl | hx
    · exact isTableName_of_readName hname
    · exact ih hmore x hx

/-- An object describes a mnemonic if its members about it have texts. -/
theorem readMembers_eq_ok_iff {name : String} {entry : Json} {m : Mnemonic} :
    readMembers name entry = .ok m ↔ ∃ operands description,
      entryText entry "operands" = .ok operands ∧
        entryText entry "description" = .ok description ∧ ⟨name, operands, description⟩ = m := by
  simp only [readMembers, Except.bind_eq_ok_iff, pure, Except.pure, Except.ok.injEq,
    exists_and_left]

theorem name_of_readEntry {name : String} {entry : Json} {m : Mnemonic}
    (h : readEntry name entry = .ok m) : m.name = name := by
  cases entry with
  | str => cases h; rfl
  | obj fields =>
    obtain ⟨_, _, -, -, rfl⟩ := readMembers_eq_ok_iff.mp (Except.mapError_eq_ok_iff.mp h)
    rfl
  | null => cases h; rfl
  | _ => cases h

theorem isTableName_of_readEntries {fields : List (Text.Loose × Json)} {ms : List Mnemonic}
    (h : readEntries fields = .ok ms) : ∀ m ∈ ms, Literal.isTableName m.name = true := by
  induction fields generalizing ms with
  | nil => cases h; simp
  | cons field rest ih =>
    obtain ⟨key, entry⟩ := field
    obtain ⟨name, hname, h⟩ := Except.bind_eq_ok_iff.mp h
    obtain ⟨m, hm, h⟩ := Except.bind_eq_ok_iff.mp h
    obtain ⟨more, hmore, h⟩ := Except.bind_eq_ok_iff.mp h
    cases h
    intro x hx
    rcases List.mem_cons.mp hx with rfl | hx
    · rw [name_of_readEntry hm]
      exact isTableName_of_readName hname
    · exact ih hmore x hx

theorem isTableName_of_readMnemonics {part : Option Json} {ms : List Mnemonic}
    (h : readMnemonics part = .ok ms) : ∀ m ∈ ms, Literal.isTableName m.name = true := by
  unfold readMnemonics at h
  split at h
  next => cases h; simp
  next items =>
    obtain ⟨names, hnames, rfl⟩ := Except.map_eq_ok_iff.mp h
    intro m hm
    obtain ⟨name, hname, rfl⟩ := List.mem_map.mp hm
    exact isTableName_of_readNameList hnames name hname
  next fields => exact isTableName_of_readEntries h
  next => cases h

theorem isTableName_of_readNames {part : Part} {value : Option Json} {names : List String}
    (h : readNames part value = .ok names) : ∀ name ∈ names, Literal.isTableName name = true := by
  unfold readNames at h
  split at h
  next => cases h; simp
  next items => exact isTableName_of_readNameList h
  next => cases h

/-- The value is an object of known parts, and the extension is read from them. -/
structure Extension.ReadFrom (ext : Extension) (data : Json) : Prop where
  object : ∃ fields, data = .obj fields ∧ unknownKeys fields = []
  mnemonics : readMnemonics (data.get? Part.mnemonics.key) = .ok ext.mnemonics
  registers : readNames .registers (data.get? Part.registers.key) = .ok ext.registers
  jumps : readNames .jumps (data.get? Part.jumps.key) = .ok ext.jumps

theorem Extension.readFrom_of_ofJson {data : Json} {ext : Extension}
    (h : Extension.ofJson data = .ok ext) : ext.ReadFrom data := by
  unfold Extension.ofJson at h
  split at h
  next fields =>
    split at h
    next hknown =>
      obtain ⟨ms, hms, h⟩ := Except.bind_eq_ok_iff.mp h
      obtain ⟨rs, hrs, h⟩ := Except.bind_eq_ok_iff.mp h
      obtain ⟨js, hjs, h⟩ := Except.bind_eq_ok_iff.mp h
      cases h
      exact ⟨⟨fields, rfl, List.isEmpty_iff.mp hknown⟩, hms, hrs, hjs⟩
    next => cases h
  next => cases h

theorem Extension.named_of_ofJson {data : Json} {ext : Extension}
    (h : Extension.ofJson data = .ok ext) : ext.Named := by
  have hread := Extension.readFrom_of_ofJson h
  exact ⟨isTableName_of_readMnemonics hread.mnemonics, isTableName_of_readNames hread.registers,
    isTableName_of_readNames hread.jumps⟩

-- ---------------------------------------------------------------------------
-- Soundness
-- ---------------------------------------------------------------------------

theorem builtin_sound : Sound .builtin where
  mnemonic_names := by decide
  register_names := by decide
  jump_mnemonics := by decide
  directives_eq := rfl

/-- The mnemonics that an extension adds are names in lower case. -/
theorem Extension.Named.allMnemonics {ext : Extension} (h : ext.Named) (base : Grammar) :
    ∀ m ∈ ext.allMnemonics base, Literal.isTableName m.name = true := by
  intro m hm
  rcases List.mem_append.mp hm with hm | hm
  · exact h.mnemonics m hm
  · obtain ⟨name, hname, rfl⟩ := List.mem_map.mp hm
    exact h.jumps name (List.mem_filter.mp hname).1

/-- Lower-casing leaves names in lower case as they are. -/
theorem map_lowercase_eq_self {names : List String}
    (h : ∀ name ∈ names, Literal.isTableName name = true) : names.map Text.lowercase = names :=
  calc names.map Text.lowercase
      = names.map id := List.map_congr_left fun name hname =>
        Literal.lowercase_eq_self_of_isTableName (h name hname)
    _ = names := List.map_id names

theorem map_name_jumpEntry (names : List String) :
    (names.map jumpEntry).map Mnemonic.name = names := by
  rw [List.map_map]
  exact List.map_id names

/-- Every jump of an extension is a mnemonic of the base, or one that it adds. -/
theorem Extension.jump_mem_allMnemonics {ext : Extension} {base : Grammar} {name : String}
    (h : name ∈ ext.jumps) :
    name ∈ base.mnemonicKeys ∨ name ∈ (ext.allMnemonics base).map Mnemonic.name := by
  by_cases hbase : name ∈ base.mnemonicKeys
  · exact .inl hbase
  · right
    rw [Extension.allMnemonics, List.map_append, map_name_jumpEntry, List.mem_append]
    by_cases hlisted : name ∈ ext.mnemonics.map Mnemonic.name
    · exact .inl hlisted
    · exact .inr (List.mem_filter.mpr ⟨h, by simp [hbase, hlisted]⟩)

section Extend

variable {g : Grammar} {ext : Extension} (hext : ext.Named) {name : String}

include hext

/-- The names of the mnemonics that an extension adds are in lower case already. -/
theorem isTableName_of_mem_allMnemonics (h : name ∈ (ext.allMnemonics g).map Mnemonic.name) :
    Literal.isTableName name = true := by
  obtain ⟨m, hm, rfl⟩ := List.mem_map.mp h
  exact hext.allMnemonics g m hm

/-- Adding an extension stores its entries under their own names. -/
theorem mnemonics_extend :
    (g.extend (ext.allMnemonics g) ext.registers ext.jumps).mnemonics =
      (ext.allMnemonics g).foldl (fun table m => Keyed.put table m.name m) g.mnemonics := by
  refine List.foldl_ext _ _ _ fun table m hm => ?_
  rw [Literal.lowercase_eq_self_of_isTableName (hext.allMnemonics g m hm)]

/-- An extension adds the mnemonics that it lists, and its jumps. -/
theorem mem_mnemonicKeys_extend :
    name ∈ (g.extend (ext.allMnemonics g) ext.registers ext.jumps).mnemonicKeys ↔
      name ∈ g.mnemonicKeys ∨ name ∈ (ext.allMnemonics g).map Mnemonic.name := by
  rw [mnemonicKeys, mnemonics_extend hext, Keyed.mem_names_foldl_put]
  rfl

theorem mem_registers_extend :
    name ∈ (g.extend (ext.allMnemonics g) ext.registers ext.jumps).registers ↔
      name ∈ g.registers ∨ name ∈ ext.registers := by
  rw [Grammar.extend, map_lowercase_eq_self hext.registers, Keyed.mem_foldl_addName]

theorem mem_jumps_extend :
    name ∈ (g.extend (ext.allMnemonics g) ext.registers ext.jumps).jumps ↔
      name ∈ g.jumps ∨ name ∈ ext.jumps := by
  rw [Grammar.extend, map_lowercase_eq_self hext.jumps, Keyed.mem_foldl_addName]

/-- Adding an extension keeps a grammar sound. -/
theorem Sound.extend (hg : g.Sound) :
    (g.extend (ext.allMnemonics g) ext.registers ext.jumps).Sound := by
  refine ⟨?_, ?_, ?_, hg.directives_eq⟩
  · intro key hkey
    rcases (mem_mnemonicKeys_extend hext).mp hkey with h | h
    · exact hg.mnemonic_names key h
    · exact isTableName_of_mem_allMnemonics hext h
  · intro name hname
    rcases (mem_registers_extend hext).mp hname with h | h
    · exact hg.register_names name h
    · exact hext.registers name h
  · intro name hname
    rcases (mem_jumps_extend hext).mp hname with h | h
    · exact (mem_mnemonicKeys_extend hext).mpr (.inl (hg.jump_mnemonics name h))
    · exact (mem_mnemonicKeys_extend hext).mpr (Extension.jump_mem_allMnemonics h)

end Extend

/-- A value is accepted as an extension if it describes one that does not clash. -/
theorem exists_extension_of_addJson {g g' : Grammar} {data : Json} (h : g.addJson data = .ok g') :
    ∃ ext : Extension, Extension.ofJson data = .ok ext ∧ ext.clashes g = [] ∧
      g' = g.extend (ext.allMnemonics g) ext.registers ext.jumps := by
  obtain ⟨ext, hext, h⟩ := Except.bind_eq_ok_iff.mp h
  replace h := Except.mapError_eq_ok_iff.mp h
  unfold add at h
  split at h
  next hclash =>
    cases h
    exact ⟨ext, hext, List.isEmpty_iff.mp hclash, rfl⟩
  next => cases h

theorem Sound.addJson {g g' : Grammar} {data : Json} (hg : g.Sound) (h : g.addJson data = .ok g') :
    g'.Sound := by
  obtain ⟨ext, hext, _, rfl⟩ := exists_extension_of_addJson h
  exact Sound.extend (Extension.named_of_ofJson hext) hg

/-- Every grammar that extensions make is sound. -/
theorem Extended.sound {g : Grammar} (h : g.Extended) : g.Sound := by
  induction h with
  | builtin => exact builtin_sound
  | add _ hadd ih => exact ih.addJson hadd

-- ---------------------------------------------------------------------------
-- Words of a sound grammar
-- ---------------------------------------------------------------------------

namespace Sound

variable {g : Grammar} (hg : g.Sound) {caseSensitive : Bool} {word : String}

include hg

/-- The integers that directives take have at most 32 bits. -/
theorem bits_le {d : Directive} (hd : d ∈ g.directives) : ∀ bits ∈ d.bitWidth, bits ≤ 32 := by
  rw [hg.directives_eq] at hd
  have hall : ∀ d ∈ builtinDirectives, ∀ bits ∈ d.bitWidth, bits ≤ 32 := by decide
  exact hall d hd

theorem isMnemonic_of_isJump (h : g.isJump caseSensitive word = true) :
    g.isMnemonic caseSensitive word = true := by
  simp only [Grammar.isJump, decide_eq_true_eq] at h
  exact Keyed.isSome_get?_iff.mpr (hg.jump_mnemonics _ h)

/-- A word whose first character no name starts with, and lower-casing leaves alone,
    is not looked up with success. -/
theorem unknown_of_head {c : Char} {rest : List Char} (hword : word.toList = c :: rest)
    (hascii : c.toNat < 128) (hupper : c.isUpper = false) (hc : Literal.isNameStart c = false) :
    g.isMnemonic caseSensitive word = false ∧ g.isRegister caseSensitive word = false := by
  have hhead : (lookupForm caseSensitive word).toList.head? = some c := by
    unfold lookupForm
    split
    · rw [hword]; rfl
    · exact Text.head?_lowercase hword hascii hupper
  have hname : Literal.isTableName (lookupForm caseSensitive word) ≠ true := by
    intro h
    obtain ⟨d, hd, hstart⟩ := Literal.head?_of_isTableName h
    rw [hhead] at hd
    cases hd
    rw [hc] at hstart
    cases hstart
  constructor
  · rw [← Bool.not_eq_true]
    intro h
    exact hname (hg.mnemonic_names _ (Keyed.isSome_get?_iff.mp h))
  · rw [← Bool.not_eq_true]
    intro h
    exact hname (hg.register_names _ (by simpa [Grammar.isRegister] using h))

/-- A directive is found under its own name. -/
theorem directive?_eq_some_iff {name : String} {d : Directive} :
    g.directive? name = some d ↔ d ∈ g.directives ∧ d.name = name := by
  constructor
  · intro h
    exact ⟨List.mem_of_find?_eq_some h, by simpa using List.find?_some h⟩
  · rintro ⟨hd, rfl⟩
    rw [Grammar.directive?, hg.directives_eq]
    rw [hg.directives_eq] at hd
    revert d
    decide

end Sound

end Grammar

end AsmHighlight
