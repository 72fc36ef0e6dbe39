-- SUMMARY: Adding an extension a second time changes nothing.
import AsmHighlight.Proofs.Grammar.Chained

/-!
# Repeated extensions

A grammar that holds an extension accepts it again and stays as it is
(`addJson_again`), entry by entry and in the same order. The second time the names
are checked against a grammar that has them already, and the jumps are mnemonics by
then, so that no entry is made for them. What is stored again are the entries that
the extension lists, and where it lists several under one name the last one stays
both times.
-/

namespace AsmHighlight.Grammar

section Again

variable {g extended : Grammar} {ext : Extension} (hext : ext.Named)
  (hadded : g.extend (ext.allMnemonics g) ext.registers ext.jumps = extended)

include hext hadded

/-- No jump of an extension gets an entry of its own where the extension was added. -/
theorem allMnemonics_extended : ext.allMnemonics extended = ext.mnemonics := by
  have hnone : ext.jumps.filter (fun name =>
      name ∉ ext.mnemonics.map Mnemonic.name && name ∉ extended.mnemonicKeys) = [] := by
    refine List.filter_eq_nil_iff.mpr fun name hname => ?_
    have hknown : name ∈ extended.mnemonicKeys := by
      rw [← hadded, mem_mnemonicKeys_extend hext]
      exact Extension.jump_mem_allMnemonics hname
    simp [hknown]
  simp only [Extension.allMnemonics, hnone, List.map_nil, List.append_nil]

/-- An extension does not clash with what it has added itself. -/
theorem clashes_extended (hclash : ext.clashes g = []) : ext.clashes extended = [] := by
  obtain ⟨hmnemonics, hregisters⟩ := Extension.clashes_eq_nil_iff.mp hclash
  rw [Extension.clashes_eq_nil_iff, allMnemonics_extended hext hadded]
  subst hadded
  refine ⟨fun name hname => ?_, fun name hname hkey => ?_⟩
  · have hlisted : name ∈ (ext.allMnemonics g).map Mnemonic.name := by
      rw [Extension.allMnemonics, List.map_append]
      exact List.mem_append_left _ hname
    obtain ⟨hbase, hnew⟩ := hmnemonics name hlisted
    exact ⟨fun h => ((mem_registers_extend hext).mp h).elim hbase hnew, hnew⟩
  · rcases (mem_mnemonicKeys_extend hext).mp hkey with h | h
    · exact hregisters name hname h
    · exact (hmnemonics name h).2 hname

/-- The entries that an extension lists are those that the table holds after adding it. -/
theorem mnemonics_extended :
    ext.mnemonics.foldl (fun table m => Keyed.put table m.name m) extended.mnemonics =
      extended.mnemonics := by
  refine @Keyed.foldl_put_eq_self _ _ _ _ Mnemonic.name id ext.mnemonics _ g.mnemonics
    fun name hname => ?_
  rw [← hadded, mnemonics_extend hext, Extension.allMnemonics, List.foldl_append]
  -- The entries of jumps come behind the listed ones, and have other names.
  refine Keyed.get?_foldl_put_of_notMem fun hjump => ?_
  rw [map_name_jumpEntry, List.mem_filter] at hjump
  simp [hname] at hjump

/-- The words of an extension can be added again without a difference. -/
theorem extend_extended :
    extended.extend (ext.allMnemonics extended) ext.registers ext.jumps = extended := by
  have hmnemonics := mnemonics_extended hext hadded
  rw [← allMnemonics_extended hext hadded, ← mnemonics_extend hext] at hmnemonics
  have hregisters : ∀ name ∈ ext.registers, name ∈ extended.registers := fun name hname => by
    rw [← hadded, mem_registers_extend hext]
    exact .inr hname
  have hjumps : ∀ name ∈ ext.jumps, name ∈ extended.jumps := fun name hname => by
    rw [← hadded, mem_jumps_extend hext]
    exact .inr hname
  simp only [Grammar.extend] at hmnemonics ⊢
  rw [hmnemonics, map_lowercase_eq_self hext.registers, map_lowercase_eq_self hext.jumps,
    Keyed.foldl_addName_eq_self hregisters, Keyed.foldl_addName_eq_self hjumps]

end Again

/-- An extension that was added is accepted again, and changes nothing. -/
theorem addJson_again {base g : Grammar} {data : Json} (h : base.addJson data = .ok g) :
    g.addJson data = .ok g := by
  obtain ⟨ext, hext, hclash, hadded⟩ := exists_extension_of_addJson h
  have hnamed := Extension.named_of_ofJson hext
  refine Except.bind_eq_ok_iff.mpr ⟨ext, hext, ?_⟩
  rw [add, clashes_extended hnamed hadded.symm hclash, extend_extended hnamed hadded.symm]
  rfl

/-- An extension that lists names in two spellings, an entry for a built-in mnemonic, and
    jumps of which one is listed as a mnemonic too. -/
def respelled : Json :=
  .object
    [("mnemonics", .object
      [("Swap", .str "first"), ("cpy", .object [("operands", .str "reg")]), ("swap", .null)]),
    ("registers", .arr [.str "Ix", .str "ix"]),
    ("jump_mnemonics", .arr [.str "jz", .str "swap", .str "JZ"])]

/-- The later entry stays, and so it does when the extension is added again. -/
theorem addJson_again_respelled :
    ∃ g, builtin.addJson respelled = .ok g ∧ g.mnemonic? "SWAP" = some ⟨"swap", "", ""⟩ ∧
      g.jumps = ["jp", "jz", "swap"] ∧ g.addJson respelled = .ok g := by
  have hfound : (builtin.addJson respelled).toOption.map
      (fun g => decide (g.mnemonic? "SWAP" = some ⟨"swap", "", ""⟩ ∧
        g.jumps = ["jp", "jz", "swap"])) = some true := by
    decide +kernel
  cases hadd : builtin.addJson respelled with
  | error fault => rw [hadd] at hfound; cases hfound
  | ok g =>
    rw [hadd] at hfound
    obtain ⟨hswap, hjumps⟩ := of_decide_eq_true (Option.some.inj hfound)
    exact ⟨g, rfl, hswap, hjumps, addJson_again hadd⟩

end AsmHighlight.Grammar
