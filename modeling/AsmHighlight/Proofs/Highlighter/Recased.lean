-- SUMMARY: Where case does not matter, recased mnemonics and registers are highlighted alike.
import AsmHighlight.Proofs.Highlighter.Relocated
import AsmHighlight.Proofs.Token.Recased

/-!
# Documents with recased mnemonics and registers

After classification nothing reads the text of a mnemonic or register but to ask
whether it is a jump, and the answer does not depend on case. So each later step
treats folded tokens as it treats the tokens: collecting finds the same labels
(`Label.collectFrom_map_folded`), resolution the same references
(`Label.resolveFrom_map_folded`), and checking has the same remarks, which call a
mnemonic a mnemonic and do not quote it (`Directive.moves_folded`).

If the letters of mnemonics and registers are recased, the document therefore has
the same stream up to the case of these letters (`highlight_recased`).
-/

namespace AsmHighlight

-- ---------------------------------------------------------------------------
-- Labels
-- ---------------------------------------------------------------------------

namespace Label

theorem collectFrom_map_folded (table : Table) (tokens : List Token) :
    collectFrom table (tokens.map Token.folded) = collectFrom table tokens := by
  induction tokens generalizing table with
  | nil => rfl
  | cons t rest ih =>
    simp only [List.map_cons, collectFrom, Token.category_folded, Token.name?,
      Token.attributes_folded, Token.range_folded, ih]

/-- Tokens that are folded to the same declare the same labels. -/
theorem collect_of_folded_eq {tokens tokens' : List Token}
    (h : tokens'.map Token.folded = tokens.map Token.folded) : collect tokens' = collect tokens := by
  rw [collect, ← collectFrom_map_folded, h, collectFrom_map_folded, collect]

variable {g : Grammar} {severity : Severity}

theorem isJumpOperand_folded (previous : Option Token) (t : Token) :
    isJumpOperand g false (previous.map Token.folded) t.folded =
      isJumpOperand g false previous t := by
  simp only [isJumpOperand, Option.any_map, Token.category_folded, Token.line, Token.range_folded,
    Token.isJump_folded]

/-- References are resolved alike, and the unknown ones are reported alike. -/
theorem resolveFrom_map_folded (table : Table) (previous : Option Token) (tokens : List Token) :
    resolveFrom g false severity table (previous.map Token.folded) (tokens.map Token.folded) =
      Prod.map (List.map Token.folded) id (resolveFrom g false severity table previous tokens) := by
  induction tokens generalizing previous with
  | nil => rfl
  | cons t rest ih =>
    have hrest := ih (some t)
    rw [Option.map_some] at hrest
    simp only [List.map_cons, resolveFrom, hrest, isJumpOperand_folded]
    split
    next hop =>
      simp only [isJumpOperand, Bool.and_eq_true, beq_iff_eq] at hop
      have hname : t.folded = t := Token.folded_of_not_anyCase (by rw [hop.1]; rfl)
      have hreference : (reference table t).folded = reference table t :=
        Token.folded_of_not_anyCase (by rw [category_reference]; rfl)
      simp only [hname, Prod.map, List.map_cons, hreference, id]
    next => rfl

end Label

-- ---------------------------------------------------------------------------
-- Directives
-- ---------------------------------------------------------------------------

theorem Directive.moves_folded : Moves .refl Token.folded where
  category := Token.category_folded
  text t ht := by rw [Token.folded_of_not_anyCase (decide_eq_false ht)]
  range := Token.range_folded
  directiveName? t _ := by rw [Token.directiveName?, Token.attributes_folded]; rfl
  integerValue? t _ := by rw [Token.integerValue?, Token.attributes_folded]; rfl
  annotate d t ht := by
    have hannotated : (annotate d t).category = .directiveKeyword := ht
    rw [Token.folded_of_not_anyCase (by rw [ht]; rfl),
      Token.folded_of_not_anyCase (by rw [hannotated]; rfl)]

theorem Directive.check_map_folded {g : Grammar} (tokens : List Token) :
    check g (tokens.map Token.folded) =
      (check g tokens).map (Prod.map (List.map Token.folded) id) := by
  have hrefl : List.map (Diagnostic.relocate .refl) = id := List.map_id_fun
  rw [moves_folded.check_map, hrefl]

/-- Tokens that are folded to the same are checked alike. -/
theorem Directive.exists_check_of_folded_eq {g : Grammar} {tokens tokens' checked : List Token}
    {found : List Diagnostic} (h : tokens'.map Token.folded = tokens.map Token.folded)
    (hcheck : check g tokens = .ok (checked, found)) :
    ∃ checked', check g tokens' = .ok (checked', found) ∧
      checked'.map Token.folded = checked.map Token.folded := by
  have hmap : (check g tokens').map (Prod.map (List.map Token.folded) id) =
      .ok (checked.map Token.folded, found) := by
    rw [← check_map_folded, h, check_map_folded, hcheck]
    rfl
  obtain ⟨⟨checked', found'⟩, hcheck', heq⟩ := Except.map_eq_ok_iff.mp hmap
  obtain ⟨hchecked, rfl⟩ := Prod.mk.inj heq
  exact ⟨checked', hcheck', hchecked⟩

-- ---------------------------------------------------------------------------
-- Texts
-- ---------------------------------------------------------------------------

/-- A slice is known by its characters. -/
theorem Text.slice_congr {source source' : String} {start stop : Int} (hstart : 0 ≤ start)
    (h : ∀ i : Nat, start ≤ i → i < stop → source'.toList[i]? = source.toList[i]?) :
    slice source' start stop = slice source start stop := by
  refine congrArg String.ofList (List.ext_getElem? fun i => ?_)
  rw [List.getElem?_take, List.getElem?_take]
  split
  next hi =>
    rw [List.getElem?_drop, List.getElem?_drop]
    exact h _ (by omega) (by omega)
  next => rfl

/-- The tokens differ in case only, and not even in case unless they are a mnemonic or a
    register. -/
structure Token.Recased (t t' : Token) : Prop where
  category : t'.category = t.category
  range : t'.range = t.range
  attributes : t'.attributes = t.attributes
  toLower_text : t'.text.toLower = t.text.toLower
  text : t.category ∉ [.mnemonic, .register] → t'.text = t.text

theorem Token.recased_of_folded_eq {t t' : Token} (h : t'.folded = t.folded) : t.Recased t' := by
  have hcategory : t'.category = t.category := by rw [← category_folded, h, category_folded]
  constructor
  case category => exact hcategory
  case range => rw [← range_folded, h, range_folded]
  case attributes => rw [← attributes_folded, h, attributes_folded]
  case toLower_text => rw [← toLower_text_folded, h, toLower_text_folded]
  case text =>
    intro hother
    have hother : t.category.anyCase = false := decide_eq_false hother
    rw [folded_of_not_anyCase hother, folded_of_not_anyCase (hcategory ▸ hother)] at h
    rw [h]

/-- The streams differ in the case of mnemonics and registers only. -/
structure Stream.Recased (s s' : Stream) : Prop where
  version : s'.version = s.version
  tokens : List.Forall₂ Token.Recased s.tokens s'.tokens
  labels : s'.labels = s.labels
  diagnostics : s'.diagnostics = s.diagnostics
  dropped : s'.dropped = s.dropped

namespace Highlighter

/-- The documents differ only in the ASCII case of letters in the mnemonics and registers
    of a stream, and none of these letters is the sigil. -/
structure RecasesWords (sigil : Char) (s : Stream) (source source' : String) : Prop where
  length_eq : source'.length = source.length
  changed : ∀ (i : Nat) (c c' : Char), source.toList[i]? = some c → source'.toList[i]? = some c' →
    c' ≠ c → c'.toLower = c.toLower ∧ c ≠ sigil ∧ c' ≠ sigil ∧
      ∃ t ∈ s.tokens, t.category ∈ [.mnemonic, .register] ∧ t.range.covers i = true

namespace RecasesWords

variable {sigil : Char} {s : Stream} {source source' : String}
  (h : RecasesWords sigil s source source')

include h

/-- A character stays, or it is one of the changed letters. -/
theorem getElem?_cases (i : Nat) : source'.toList[i]? = source.toList[i]? ∨
    ∃ c c', source.toList[i]? = some c ∧ source'.toList[i]? = some c' ∧ c' ≠ c := by
  have hlength : source'.toList.length = source.toList.length := by
    rw [String.length_toList, String.length_toList, h.length_eq]
  cases hc : source.toList[i]? with
  | none =>
    have hi := List.getElem?_eq_none_iff.mp hc
    exact .inl (List.getElem?_eq_none_iff.mpr (by omega))
  | some c =>
    obtain ⟨hi, _⟩ := List.getElem?_eq_some_iff.mp hc
    have hc' := List.getElem?_eq_getElem (hlength ▸ hi)
    by_cases heq : source'.toList[i] = c
    · exact .inl (by rw [hc', heq])
    · exact .inr ⟨c, _, rfl, hc', heq⟩

/-- The documents are folded to the same. -/
theorem map_foldCase_eq :
    source'.toList.map (Text.foldCase sigil) = source.toList.map (Text.foldCase sigil) := by
  refine List.ext_getElem? fun i => ?_
  rw [List.getElem?_map, List.getElem?_map]
  rcases h.getElem?_cases i with heq | ⟨c, c', hc, hc', hne⟩
  · rw [heq]
  · obtain ⟨hlower, hsigil, hsigil', _⟩ := h.changed i c c' hc hc' hne
    rw [hc, hc', Option.map_some, Option.map_some,
      Text.foldCase_eq_of_toLower_eq hlower hsigil hsigil']

end RecasesWords

-- ---------------------------------------------------------------------------
-- Documents
-- ---------------------------------------------------------------------------

/-- Tokens that are folded to the same have the same references. -/
theorem resolution_of_folded_eq {h : Highlighter} (hcase : h.policy.caseSensitive = false)
    (labels : Label.Table) {tokens tokens' : List Token}
    (hfolded : tokens'.map Token.folded = tokens.map Token.folded) :
    Prod.map (List.map Token.folded) id (h.resolution labels tokens') =
      Prod.map (List.map Token.folded) id (h.resolution labels tokens) := by
  have hmap (tokens : List Token) : h.resolution labels (tokens.map Token.folded) =
      Prod.map (List.map Token.folded) id (h.resolution labels tokens) := by
    rw [resolution, resolution, hcase]
    exact Label.resolveFrom_map_folded labels none tokens
  rw [← hmap, hfolded, hmap]

namespace Steps

variable {h : Highlighter} {source source' : String} (steps : Steps h source)

/-- The steps after classification leave mnemonics and registers as they are. -/
theorem mem_checked_of_anyCase {t : Token} (ht : t ∈ steps.tokens)
    (hword : t.category.anyCase = true) : t ∈ steps.checked := by
  obtain ⟨i, hi⟩ := List.mem_iff_getElem?.mp ht
  have hother (category : Token.Category) (hcategory : category.anyCase = false) :
      t.category ≠ category := by
    rintro rfl
    rw [hword] at hcategory
    cases hcategory
  have hoperand : ¬ steps.isOperandAt i t = true :=
    fun hop => hother .identifier rfl (steps.category_of_isOperandAt hop)
  refine List.mem_iff_getElem?.mpr ⟨i, ?_⟩
  rw [steps.getElem?_checked, hi, Option.map_some, if_neg hoperand,
    Directive.mark_of_category_ne (hother .directiveKeyword rfl)]

theorem anyCase_checked {i : Nat} {t u : Token} (ht : steps.tokens[i]? = some t)
    (hu : steps.checked[i]? = some u) : u.category.anyCase = t.category.anyCase := by
  obtain ⟨c, hc, _, hmade⟩ := steps.exists_classified hu
  cases ht.symm.trans hc
  rcases hmade with ⟨hop, rfl⟩ | ⟨_, rfl⟩
  · rw [Label.category_reference, steps.category_of_isOperandAt hop]
    rfl
  · rw [Directive.category_mark]

section Recased

variable {version : Json}
  (hwords : RecasesWords h.policy.sigil (steps.stream version) source source')

include hwords

/-- The characters of other tokens stay, because each is covered by one token only. -/
theorem getElem?_eq_of_covers {u : Token} (hu : u ∈ steps.checked)
    (hother : u.category.anyCase = false) {k : Nat} (hcovers : u.range.covers k = true) :
    source'.toList[k]? = source.toList[k]? := by
  rcases hwords.getElem?_cases k with heq | ⟨c, c', hc, hc', hne⟩
  · exact heq
  · obtain ⟨_, _, _, v, hv, hword, hcovers'⟩ := hwords.changed k c c' hc hc' hne
    rw [steps.tokens_stream] at hv
    rw [steps.eq_of_covers hu hv hcovers hcovers'] at hother
    exact absurd hword (of_decide_eq_false hother)

/-- What is neither a mnemonic nor a register keeps its text. -/
theorem text_eq_of_recasesWords {i : Nat} {l l' : Lexeme} {t : Token}
    (hl : (h.lexemes source)[i]? = some l) (hl' : l' ∈ h.lexemes source')
    (hrange : l'.range = l.range) (ht : steps.tokens[i]? = some t)
    (hother : t.category.anyCase = false) : l'.text = l.text := by
  obtain ⟨u, hu, hspan⟩ := Token.exists_token_of_map_span steps.map_span hl
  have hmem : u.span ∈ steps.checked.map Token.span :=
    List.mem_map_of_mem (List.mem_of_getElem? hu)
  have htext : u.text = Text.slice source u.range.start.offset u.range.stop.offset :=
    steps.tiles.text_eq u.span hmem
  have htext' : l'.text = Text.slice source' l'.range.start.offset l'.range.stop.offset :=
    (Lexeme.scan_tiling _ source').tiles.text_eq l'.span (List.mem_map_of_mem hl')
  obtain ⟨hutext, hurange⟩ : u.text = l.text ∧ u.range = l.range := Span.mk.inj hspan
  rw [htext', hrange, ← hutext, htext, ← hurange]
  refine Text.slice_congr (steps.tiles.inside u.span hmem).1 fun k hstart hstop => ?_
  refine steps.getElem?_eq_of_covers hwords (List.mem_of_getElem? hu) ?_ ?_
  · rw [steps.anyCase_checked ht hu, hother]
  · simp [Range.covers, hstart, hstop]

variable (hcase : h.policy.caseSensitive = false)

include hcase

theorem exists_classified_recased : ∃ tokens, h.classified source' = .ok tokens ∧
    tokens.map Token.folded = steps.tokens.map Token.folded := by
  have hlexemes : List.Forall₂ Lexeme.Recased (h.lexemes source) (h.lexemes source') :=
    Lexeme.forall₂_recased_scan hwords.map_foldCase_eq
  have hclassified := steps.classified_eq
  rw [classified, hcase] at hclassified ⊢
  refine Token.classifyFrom_recased rfl hlexemes hclassified ?_
  intro i l l' t hl hl' hrecased ht hother
  exact steps.text_eq_of_recasesWords hwords hl hl' hrecased.range ht hother

/-- The recased document goes through the same steps, up to the case of its tokens. -/
theorem exists_recased : ∃ steps' : Steps h source', steps'.labels = steps.labels ∧
    steps'.diagnostics = steps.diagnostics ∧
    steps'.checked.map Token.folded = steps.checked.map Token.folded := by
  obtain ⟨tokens, hclassified, hfolded⟩ := steps.exists_classified_recased hwords hcase
  have hcollect := (Label.collect_of_folded_eq hfolded).trans steps.collect_eq
  have hresolution := resolution_of_folded_eq hcase steps.labels hfolded
  obtain ⟨checked, hcheck, hchecked⟩ :=
    Directive.exists_check_of_folded_eq (Prod.ext_iff.mp hresolution).1 steps.check_eq
  refine ⟨⟨tokens, steps.labels, steps.duplicates, checked, steps.found, hclassified, hcollect,
    hcheck⟩, rfl, ?_, hchecked⟩
  have hunresolved : (h.resolution steps.labels tokens).2 =
      (h.resolution steps.labels steps.tokens).2 := (Prod.ext_iff.mp hresolution).2
  simp only [diagnostics, Token.filterMap_malformed?_of_folded_eq hfolded, hunresolved]

end Recased

end Steps

/-- Where case does not matter, a document with recased mnemonics and registers has the
    same stream, up to the case of their letters. -/
theorem highlight_recased (h : Highlighter) (hcase : h.policy.caseSensitive = false)
    {source source' : String} {version : Json} {s : Stream}
    (hok : h.highlight source version = .ok s)
    (hwords : RecasesWords h.policy.sigil s source source') :
    ∃ s', h.highlight source' version = .ok s' ∧ s.Recased s' := by
  obtain ⟨steps, rfl⟩ := highlight_eq_ok_iff.mp hok
  obtain ⟨steps', hlabels, hdiagnostics, hchecked⟩ := steps.exists_recased hwords hcase
  refine ⟨steps'.stream version, highlight_eq_ok_iff.mpr ⟨steps', rfl⟩, rfl, ?_, hlabels, ?_, ?_⟩
  · rw [steps.tokens_stream, steps'.tokens_stream]
    exact (forall₂_of_map_eq hchecked).imp fun t t' => Token.recased_of_folded_eq
  · simp only [Steps.stream, Stream.emit, hdiagnostics]
  · simp only [Steps.stream, Stream.emit, hdiagnostics]

/-- A jump and an operand of a directive are recased, and the label that is called like
    them is not. -/
theorem highlight_recased_jump :
    ∃ s s', standard.highlight ".jp: Jp jp\n#d8 JP" = .ok s ∧
      standard.highlight ".jp: jP jp\n#d8 jp" = .ok s' ∧
      s.diagnostics.map Diagnostic.code = [.operandKind] ∧ s.labels.names = ["jp"] ∧
      s.Recased s' := by
  have hfound : (standard.highlight ".jp: Jp jp\n#d8 JP").toOption.map
      (fun s => (s.diagnostics.map Diagnostic.code, s.labels.names)) =
        some ([.operandKind], ["jp"]) := by with_unfolding_all decide
  have hclassified : (standard.classified ".jp: Jp jp\n#d8 JP").toOption.map
      (List.map fun t => (t.category, t.range.start.offset, t.range.stop.offset)) =
        some [(.labelDeclaration, 0, 4), (.mnemonic, 5, 7), (.identifier, 8, 10),
          (.directiveKeyword, 11, 14), (.mnemonic, 15, 17)] := by with_unfolding_all decide
  have hchars : ∀ i < 17, ".jp: jP jp\n#d8 jp".toList[i]? = ".jp: Jp jp\n#d8 JP".toList[i]? ∨
      (".jp: jP jp\n#d8 jp".toList[i]?.map Char.toLower =
          ".jp: Jp jp\n#d8 JP".toList[i]?.map Char.toLower ∧
        ".jp: Jp jp\n#d8 JP".toList[i]? ≠ some ';' ∧ ".jp: jP jp\n#d8 jp".toList[i]? ≠ some ';' ∧
        (5 ≤ i ∧ i < 7 ∨ 15 ≤ i ∧ i < 17)) := by decide
  cases hok : standard.highlight ".jp: Jp jp\n#d8 JP" with
  | error fault => rw [hok] at hfound; cases hfound
  | ok s =>
    rw [hok] at hfound
    obtain ⟨hcodes, hnames⟩ := Prod.mk.inj (Option.some.inj hfound)
    have hwords : RecasesWords ';' s ".jp: Jp jp\n#d8 JP" ".jp: jP jp\n#d8 jp" := by
      refine ⟨by decide, fun i c c' hc hc' hne => ?_⟩
      obtain ⟨steps, rfl⟩ := highlight_eq_ok_iff.mp hok
      rw [steps.classified_eq] at hclassified
      have hclassified := Option.some.inj hclassified
      have hword (start stop : Int) (hmem : (Token.Category.mnemonic, start, stop) ∈
          steps.tokens.map fun t => (t.category, t.range.start.offset, t.range.stop.offset))
          (hstart : start ≤ i) (hstop : i < stop) : ∃ t ∈ (steps.stream .null).tokens,
            t.category ∈ [.mnemonic, .register] ∧ t.range.covers i = true := by
        obtain ⟨t, ht, heq⟩ := List.mem_map.mp hmem
        obtain ⟨hcat, rfl, rfl⟩ : t.category = .mnemonic ∧ t.range.start.offset = start ∧
          t.range.stop.offset = stop := by simpa using heq
        rw [steps.tokens_stream]
        refine ⟨t, steps.mem_checked_of_anyCase ht (by rw [hcat]; rfl), by simp [hcat], ?_⟩
        simp [Range.covers, hstart, hstop]
      obtain ⟨hi, _⟩ := List.getElem?_eq_some_iff.mp hc
      rcases hchars i hi with heq | ⟨hlower, hsigil, hsigil', hplace⟩
      · rw [hc, hc'] at heq
        exact absurd (Option.some.inj heq) hne
      · rw [hc, hc'] at hlower
        rw [hc] at hsigil
        rw [hc'] at hsigil'
        refine ⟨Option.some.inj hlower, mt (congrArg some) hsigil, mt (congrArg some) hsigil', ?_⟩
        rw [hclassified] at hword
        rcases hplace with ⟨hstart, hstop⟩ | ⟨hstart, hstop⟩
        · exact hword 5 7 (by decide) (by omega) (by omega)
        · exact hword 15 17 (by decide) (by omega) (by omega)
    obtain ⟨s', hok', hrecased⟩ := highlight_recased standard rfl hok hwords
    exact ⟨s, s', rfl, hok', hcodes, hnames, hrecased⟩

end Highlighter

end AsmHighlight
