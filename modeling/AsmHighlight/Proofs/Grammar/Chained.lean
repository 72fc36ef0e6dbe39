-- SUMMARY: What holds of a grammar after any chain of extensions, accepted or refused.
import AsmHighlight.Proofs.Grammar.Extended

/-!
# Chains of extensions

Extensions are added one after the other, each to the grammar made so far; one
that is refused leaves the grammar as it was (`chain`). Whatever they list, the
result is coherent (`chain_coherent`): no word is a mnemonic and a register, and
nothing of the built-in grammar is lost. That names do not clash is checked for
the new ones only; it holds of all of them because it held of the base.
-/

namespace AsmHighlight

theorem Text.mem_sortedNames {names : List String} {name : String} :
    name ∈ sortedNames names ↔ name ∈ names := by
  rw [sortedNames, List.mem_mergeSort, List.mem_eraseDups]

namespace Grammar

-- ---------------------------------------------------------------------------
-- Extensions that do not clash
-- ---------------------------------------------------------------------------

/-- The names that are found to clash are those that would be a mnemonic and a register. -/
theorem Extension.mem_clashes_iff {ext : Extension} {g : Grammar} {name : String} :
    name ∈ ext.clashes g ↔
      (name ∈ (ext.allMnemonics g).map Mnemonic.name ∧
        (name ∈ g.registers ∨ name ∈ ext.registers)) ∨
      (name ∈ ext.registers ∧ name ∈ g.mnemonicKeys) := by
  simp only [Extension.clashes, Text.mem_sortedNames, List.mem_append, List.mem_filter,
    Bool.or_eq_true, decide_eq_true_eq]

theorem Extension.clashes_eq_nil_iff {ext : Extension} {g : Grammar} :
    ext.clashes g = [] ↔
      (∀ name ∈ (ext.allMnemonics g).map Mnemonic.name,
        name ∉ g.registers ∧ name ∉ ext.registers) ∧
      ∀ name ∈ ext.registers, name ∉ g.mnemonicKeys := by
  simp only [List.eq_nil_iff_forall_not_mem, mem_clashes_iff, not_or, not_and]
  exact ⟨fun h => ⟨fun name => (h name).1, fun name => (h name).2⟩,
    fun h name => ⟨h.1 name, h.2 name⟩⟩

-- ---------------------------------------------------------------------------
-- Coherence
-- ---------------------------------------------------------------------------

/-- What every grammar keeps to, however it was extended. -/
structure Coherent (g : Grammar) : Prop where
  /-- No word is a mnemonic and a register. -/
  apart : ∀ name ∈ g.mnemonicKeys, name ∉ g.registers
  jumps_subset : ∀ name ∈ g.jumps, name ∈ g.mnemonicKeys
  /-- Each key stands once, and is the name of its mnemonic. -/
  keys_nodup : g.mnemonicKeys.Nodup
  keys_named : ∀ entry ∈ g.mnemonics, entry.2.name = entry.1
  mnemonics_lower : ∀ key ∈ g.mnemonicKeys, Text.lowercase key = key
  registers_lower : ∀ name ∈ g.registers, Text.lowercase name = name
  /-- Nothing of the built-in grammar is lost. -/
  mnemonics_kept : ∀ key ∈ builtin.mnemonicKeys, key ∈ g.mnemonicKeys
  registers_kept : ∀ name ∈ builtin.registers, name ∈ g.registers
  jumps_kept : ∀ name ∈ builtin.jumps, name ∈ g.jumps
  directives_eq : g.directives = builtin.directives

theorem builtin_coherent : Coherent .builtin where
  apart := by decide
  jumps_subset := by decide
  keys_nodup := by decide
  keys_named := by decide
  mnemonics_lower _ h := Literal.lowercase_eq_self_of_isTableName (builtin_sound.mnemonic_names _ h)
  registers_lower _ h := Literal.lowercase_eq_self_of_isTableName (builtin_sound.register_names _ h)
  mnemonics_kept _ h := h
  registers_kept _ h := h
  jumps_kept _ h := h
  directives_eq := rfl

namespace Coherent

variable {g g' : Grammar} (hg : g.Coherent)

include hg

/-- An extension that does not clash keeps a grammar coherent. -/
theorem extend {ext : Extension} (hext : ext.Named) (hclash : ext.clashes g = []) :
    (g.extend (ext.allMnemonics g) ext.registers ext.jumps).Coherent where
  apart := by
    intro name hname hregister
    rw [mem_mnemonicKeys_extend hext] at hname
    rw [mem_registers_extend hext] at hregister
    rcases hname with hold | hnew
    · rcases hregister with h | h
      · exact hg.apart name hold h
      · exact (Extension.clashes_eq_nil_iff.mp hclash).2 name h hold
    · obtain ⟨hbase, hlisted⟩ := (Extension.clashes_eq_nil_iff.mp hclash).1 name hnew
      exact hregister.elim hbase hlisted
  jumps_subset := by
    intro name hname
    rw [mem_mnemonicKeys_extend hext]
    rcases (mem_jumps_extend hext).mp hname with h | h
    · exact .inl (hg.jumps_subset name h)
    · exact Extension.jump_mem_allMnemonics h
  keys_nodup := Keyed.nodup_names_foldl_put hg.keys_nodup
  keys_named := by
    intro entry hentry
    rcases Keyed.mem_foldl_put hentry with h | ⟨m, hm, rfl⟩
    · exact hg.keys_named entry h
    · exact (Literal.lowercase_eq_self_of_isTableName (hext.allMnemonics g m hm)).symm
  mnemonics_lower := by
    intro key hkey
    rcases (mem_mnemonicKeys_extend hext).mp hkey with h | h
    · exact hg.mnemonics_lower key h
    · exact Literal.lowercase_eq_self_of_isTableName (isTableName_of_mem_allMnemonics hext h)
  registers_lower := by
    intro name hname
    rcases (mem_registers_extend hext).mp hname with h | h
    · exact hg.registers_lower name h
    · exact Literal.lowercase_eq_self_of_isTableName (hext.registers name h)
  mnemonics_kept key h := (mem_mnemonicKeys_extend hext).mpr (.inl (hg.mnemonics_kept key h))
  registers_kept name h := (mem_registers_extend hext).mpr (.inl (hg.registers_kept name h))
  jumps_kept name h := (mem_jumps_extend hext).mpr (.inl (hg.jumps_kept name h))
  directives_eq := hg.directives_eq

theorem addJson {data : Json} (h : g.addJson data = .ok g') : g'.Coherent := by
  obtain ⟨ext, hext, hclash, rfl⟩ := exists_extension_of_addJson h
  exact hg.extend (Extension.named_of_ofJson hext) hclash

end Coherent

/-- Every grammar that extensions make is coherent. -/
theorem Extended.coherent {g : Grammar} (h : g.Extended) : g.Coherent := by
  induction h with
  | builtin => exact builtin_coherent
  | add _ hadd ih => exact ih.addJson hadd

-- ---------------------------------------------------------------------------
-- Chains
-- ---------------------------------------------------------------------------

/-- The grammar with the extension that a value describes, or as it was if the value is
    refused. -/
def addOrKeep (g : Grammar) (data : Json) : Grammar :=
  match g.addJson data with
  | .ok extended => extended
  | .error _ => g

/-- The grammar that a chain of extensions makes of the built-in one. -/
def chain (extensions : List Json) : Grammar :=
  extensions.foldl addOrKeep .builtin

theorem Coherent.addOrKeep {g : Grammar} (hg : g.Coherent) (data : Json) :
    (g.addOrKeep data).Coherent := by
  unfold Grammar.addOrKeep
  split
  next h => exact hg.addJson h
  next => exact hg

theorem Coherent.foldl_addOrKeep {g : Grammar} (hg : g.Coherent) (extensions : List Json) :
    (extensions.foldl Grammar.addOrKeep g).Coherent := by
  induction extensions generalizing g with
  | nil => exact hg
  | cons data rest ih => exact ih (hg.addOrKeep data)

/-- Every chain of extensions makes a coherent grammar. -/
theorem chain_coherent (extensions : List Json) : (chain extensions).Coherent :=
  builtin_coherent.foldl_addOrKeep extensions

-- A register that is a mnemonic is refused, and what comes after it is added.
example :
    (chain [.object [("registers", .arr [.str "CPY"])],
      .object [("jump_mnemonics", .arr [.str "Jz"])]]).jumps = ["jp", "jz"] := by
  with_unfolding_all decide

end Grammar

end AsmHighlight
