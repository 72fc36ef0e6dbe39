-- SUMMARY: The documents that cannot be highlighted, and why.
import AsmHighlight.Proofs.Highlighter.Steps

/-!
# Failures of a highlighter

Two kinds of document have no token stream, both because of an integer that is
too long for decimal conversion: a decimal word with too many digits cannot be
read (`HasOverlongWord`), and a value with too many digits cannot be shown in
the remark that it does not fit its directive (`HasOverlongOperand`). The second
kind of literal has to be written in another base, or it could not be read
either. Nothing else fails, because every token carries what the steps look up.
-/

namespace AsmHighlight.Highlighter

/-- Some word is a decimal number with too many digits to be read. -/
def HasOverlongWord (lexemes : List Lexeme) : Prop :=
  ∃ l ∈ lexemes, l.kind = .word ∧ Literal.IsOverlongDecimal l.text.toList

/-- The first operand of some integer directive is a literal whose value has too many
    digits to be shown. -/
def HasOverlongOperand (lexemes : List Lexeme) : Prop :=
  ∃ (i : Nat) (l o : Lexeme) (more : List Lexeme) (v : Int), lexemes[i]? = some l ∧
    l.kind = .word ∧ l.text ∈ ["#d8", "#d16", "#d32"] ∧
    Lexeme.operands l.line (lexemes.drop (i + 1)) = o :: more ∧ o.kind = .word ∧
    Literal.IsInteger o.text.toList v ∧ 10 ^ Decimal.maxDigits ≤ v.natAbs

-- ---------------------------------------------------------------------------
-- Integer directives
-- ---------------------------------------------------------------------------

section Directives

variable {g : Grammar} (hg : g.Sound)

include hg

theorem exists_names_unsigned_iff {l : Lexeme} :
    (∃ d bits, Directive.Names g l d ∧ d.operand = .unsigned bits) ↔
      l.kind = .word ∧ l.text ∈ ["#d8", "#d16", "#d32"] := by
  constructor
  · rintro ⟨d, bits, ⟨hkind, hd, htext⟩, hbits⟩
    have hall : ∀ d ∈ Grammar.builtinDirectives, d.operand = .text ∨
        "#" ++ d.name ∈ ["#d8", "#d16", "#d32"] := by decide
    rw [hg.directives_eq] at hd
    rcases hall d hd with h | h
    · rw [h] at hbits; cases hbits
    · exact ⟨hkind, htext ▸ h⟩
  · rintro ⟨hkind, htext⟩
    have hall : ∀ word ∈ ["#d8", "#d16", "#d32"], ∃ d ∈ Grammar.builtinDirectives,
        word = "#" ++ d.name ∧ d.operand ≠ .text := by decide
    obtain ⟨d, hd, hword, hoperand⟩ := hall l.text htext
    cases hbits : d.operand with
    | text => exact absurd hbits hoperand
    | unsigned bits => exact ⟨d, bits, ⟨hkind, hg.directives_eq ▸ hd, hword⟩, hbits⟩

theorem bits_le_maxDigits :
    ∀ d ∈ g.directives, ∀ bits, d.operand = .unsigned bits → bits ≤ Decimal.maxDigits := by
  intro d hd bits hbits
  have hwidth : d.bitWidth = some bits := by rw [Directive.bitWidth, hbits]
  exact Nat.le_trans (hg.bits_le hd bits hwidth) (by decide)

end Directives

-- ---------------------------------------------------------------------------
-- Steps that fail
-- ---------------------------------------------------------------------------

variable {h : Highlighter} {source : String} {version : Json}

theorem exists_classified_eq_error_iff :
    (∃ cause, h.classified source = .error cause) ↔ HasOverlongWord (h.lexemes source) :=
  Token.exists_classifyFrom_eq_error_iff fun _ hl => Lexeme.ne_newline_of_mem_scan hl

section Classified

variable (hg : h.grammar.Sound) {tokens : List Token}
  (hclassified : h.classified source = .ok tokens)

include hg hclassified

theorem check_resolution_eq_error_iff {labels : Label.Table} {fault : Token.Fault} :
    Directive.check h.grammar (h.resolution labels tokens).1 = .error fault ↔
      fault = .overlong .writing ∧ HasOverlongOperand (h.lexemes source) := by
  have hseen := seen_resolution hg hclassified labels
  have hsorted := (run_of_classified hg hclassified).lines_sorted
  rw [Directive.check_eq_error_iff (Directive.equipped_of_mem hseen)]
  refine and_congr_right fun _ => exists_congr fun i => ?_
  rw [Directive.failsAt_iff hseen hsorted (bits_le_maxDigits hg)]
  constructor
  · rintro ⟨l, d, o, more, bits, v, hl, hd, hbits, hops, hrest⟩
    obtain ⟨hkind, htext⟩ := (exists_names_unsigned_iff hg).mp ⟨d, bits, hd, hbits⟩
    exact ⟨l, o, more, v, hl, hkind, htext, hops, hrest⟩
  · rintro ⟨l, o, more, v, hl, hkind, htext, hops, hrest⟩
    obtain ⟨d, bits, hd, hbits⟩ := (exists_names_unsigned_iff hg).mpr ⟨hkind, htext⟩
    exact ⟨l, d, o, more, bits, v, hl, hd, hbits, hops, hrest⟩

/-- Once all words are read, only checking can fail. -/
theorem highlight_eq_error_iff_of_classified {fault : Token.Fault} :
    h.highlight source version = .error fault ↔
      fault = .overlong .writing ∧ HasOverlongOperand (h.lexemes source) := by
  obtain ⟨⟨labels, duplicates⟩, hcollect⟩ := exists_collect_eq_ok hclassified
  rw [highlight_eq, hclassified]
  simp only [Except.mapError_ok, bind, Except.bind, hcollect]
  rw [← check_resolution_eq_error_iff hg hclassified]
  cases Directive.check h.grammar (h.resolution labels tokens).1 with
  | error fault' => simp only [Except.error.injEq]
  | ok checked => exact ⟨nofun, nofun⟩

end Classified

theorem highlight_of_classified_eq_error {cause : Decimal.Overlong}
    (hclassified : h.classified source = .error cause) :
    h.highlight source version = .error (.overlong cause) := by
  rw [highlight_eq, hclassified]
  rfl

/-- A document has no token stream exactly when some integer is too long. -/
theorem exists_highlight_eq_error_iff (hg : h.grammar.Sound) :
    (∃ fault, h.highlight source version = .error fault) ↔
      HasOverlongWord (h.lexemes source) ∨ HasOverlongOperand (h.lexemes source) := by
  cases hclassified : h.classified source with
  | error cause =>
    have hword := exists_classified_eq_error_iff.mp ⟨cause, hclassified⟩
    exact ⟨fun _ => .inl hword, fun _ => ⟨_, highlight_of_classified_eq_error hclassified⟩⟩
  | ok tokens =>
    have hword : ¬ HasOverlongWord (h.lexemes source) := by
      intro hword
      obtain ⟨cause, hcause⟩ := exists_classified_eq_error_iff.mpr hword
      rw [hclassified] at hcause
      cases hcause
    constructor
    · rintro ⟨fault, hfault⟩
      exact .inr ((highlight_eq_error_iff_of_classified hg hclassified).mp hfault).2
    · rintro (hw | hoperand)
      · exact absurd hw hword
      · exact ⟨_, (highlight_eq_error_iff_of_classified hg hclassified).mpr ⟨rfl, hoperand⟩⟩

/-- Highlighting fails only because of an integer that is too long. -/
theorem exists_cause_of_highlight_eq_error (hg : h.grammar.Sound) {fault : Token.Fault}
    (hfault : h.highlight source version = .error fault) : ∃ cause, fault = .overlong cause := by
  cases hclassified : h.classified source with
  | error cause =>
    rw [highlight_of_classified_eq_error hclassified] at hfault
    cases hfault
    exact ⟨cause, rfl⟩
  | ok tokens => exact ⟨_, ((highlight_eq_error_iff_of_classified hg hclassified).mp hfault).1⟩

-- ---------------------------------------------------------------------------
-- Documents of zeros
-- ---------------------------------------------------------------------------

theorem lexemes_byte {c : Char} {word : List Char}
    (hall : ∀ x ∈ c :: word, Lexeme.isOrdinary (some ';') x = true) :
    standard.lexemes (String.ofList ('#' :: 'd' :: '8' :: ' ' :: c :: word)) =
      [⟨.word, "#d8", .ofLength .start 3, none⟩,
        ⟨.word, String.ofList (c :: word), .ofLength (.shift .start 4) (word.length + 1),
          none⟩] := by
  have hend : ∀ b ∈ (' ' :: c :: word).head?, Lexeme.isOrdinary (some ';') b = false := by
    intro b hb
    cases hb
    decide
  calc standard.lexemes (String.ofList ('#' :: 'd' :: '8' :: ' ' :: c :: word))
      = Lexeme.scanFrom (some ';') .start ('#' :: (['d', '8'] ++ ' ' :: c :: word)) := by
        rw [lexemes, Lexeme.scan, String.toList_ofList]
        rfl
    _ = ⟨.word, "#d8", .ofLength .start 3, none⟩ ::
          Lexeme.scanFrom (some ';') (.shift .start 3) (' ' :: c :: word) :=
        Lexeme.scanFrom_word (List.all_eq_true.mp rfl) hend
    _ = ⟨.word, "#d8", .ofLength .start 3, none⟩ ::
          Lexeme.scanFrom (some ';') (.shift .start 4) (c :: word) := by
        rw [Lexeme.scanFrom_blank (by decide)]
        rfl
    _ = _ := by rw [Lexeme.scanFrom_last_word hall]

/-- One digit more than decimal conversion handles, all of them zero. -/
def zeros : List Char :=
  List.replicate (Decimal.maxDigits + 1) '0'

theorem isOrdinary_of_mem_zeros {x : Char} (hx : x ∈ zeros) :
    Lexeme.isOrdinary (some ';') x = true := by
  rw [List.eq_of_mem_replicate hx]
  decide

theorem isOverlongDecimal_zeros : Literal.IsOverlongDecimal zeros := by
  refine ⟨.inl ⟨'0', List.replicate Decimal.maxDigits '0', rfl, rfl, fun x hx => .inl ?_⟩, ?_⟩
  · rw [List.eq_of_mem_replicate hx]
    rfl
  · have hcount : zeros.countP Char.isDigit = Decimal.maxDigits + 1 := by
      rw [zeros, List.countP_replicate]
      rfl
    rw [hcount]
    exact Nat.lt_succ_self _

theorem hasOverlongWord_zeros : HasOverlongWord (standard.lexemes (String.ofList zeros)) := by
  have hlexemes : standard.lexemes (String.ofList zeros) =
      [⟨.word, String.ofList zeros, .ofLength .start zeros.length, none⟩] := by
    rw [lexemes, Lexeme.scan, String.toList_ofList]
    exact Lexeme.scanFrom_last_word fun x hx => isOrdinary_of_mem_zeros hx
  rw [hlexemes]
  exact ⟨_, List.mem_cons_self .., rfl, String.toList_ofList ▸ isOverlongDecimal_zeros⟩

/-- A power of sixteen in the place of a byte. -/
def wideByte : String :=
  String.ofList ('#' :: 'd' :: '8' :: ' ' :: '0' :: 'x' :: '1' :: zeros)

/-- After the mark of its base, one and then zeros are a power of that base. -/
theorem isInteger_wide :
    Literal.IsInteger ('0' :: 'x' :: '1' :: zeros) (16 ^ (Decimal.maxDigits + 1) : Nat) := by
  have hzeros (n : Nat) : Literal.Digits 16 (List.replicate n '0') (List.replicate n 0) := by
    induction n with
    | zero => exact .nil
    | succ n ih => exact .digit ⟨by decide, .inl (by decide)⟩ ih
  have hvalue : Nat.ofDigits 16 (1 :: List.replicate (Decimal.maxDigits + 1) 0).reverse =
      16 ^ (Decimal.maxDigits + 1) := by
    rw [List.reverse_cons, List.reverse_replicate, Nat.ofDigits_append,
      Nat.ofDigits_replicate_zero, List.length_replicate, Nat.ofDigits_singleton]
    omega
  rw [← hvalue]
  exact .plain (.marked (by decide) ⟨by decide, .inl (by decide)⟩ (hzeros _))

theorem isOrdinary_of_mem_wide {x : Char} (hx : x ∈ '0' :: 'x' :: '1' :: zeros) :
    Lexeme.isOrdinary (some ';') x = true := by
  simp only [List.mem_cons] at hx
  rcases hx with rfl | rfl | rfl | hx
  · decide
  · decide
  · decide
  · exact isOrdinary_of_mem_zeros hx

theorem le_natAbs_wide :
    10 ^ Decimal.maxDigits ≤ ((16 ^ (Decimal.maxDigits + 1) : Nat) : Int).natAbs := by
  rw [Int.natAbs_natCast]
  calc 10 ^ Decimal.maxDigits
      ≤ 16 ^ Decimal.maxDigits := Nat.pow_le_pow_left (by decide) _
    _ ≤ 16 ^ (Decimal.maxDigits + 1) := Nat.pow_le_pow_right (by decide) (Nat.le_succ _)

theorem hasOverlongOperand_wideByte : HasOverlongOperand (standard.lexemes wideByte) := by
  rw [wideByte, lexemes_byte fun x hx => isOrdinary_of_mem_wide hx]
  refine ⟨0, ⟨.word, "#d8", .ofLength .start 3, none⟩, ⟨.word, _, _, none⟩, [],
    (16 ^ (Decimal.maxDigits + 1) : Nat), rfl, rfl, by decide, rfl, rfl, ?_, le_natAbs_wide⟩
  exact String.toList_ofList ▸ isInteger_wide

-- ---------------------------------------------------------------------------
-- Returning and failing
-- ---------------------------------------------------------------------------

/-- Every integer of the document is within the bounds of decimal conversion. -/
structure Convertible (lexemes : List Lexeme) : Prop where
  readable : ∀ l ∈ lexemes, l.kind = .word → ¬ Literal.IsOverlongDecimal l.text.toList
  showable : ∀ (i : Nat) (l o : Lexeme) (more : List Lexeme) (v : Int), lexemes[i]? = some l →
    l.kind = .word → l.text ∈ ["#d8", "#d16", "#d32"] →
    Lexeme.operands l.line (lexemes.drop (i + 1)) = o :: more → o.kind = .word →
    Literal.IsInteger o.text.toList v → v.natAbs < 10 ^ Decimal.maxDigits

theorem convertible_iff {lexemes : List Lexeme} :
    Convertible lexemes ↔ ¬ (HasOverlongWord lexemes ∨ HasOverlongOperand lexemes) := by
  constructor
  · rintro ⟨hreadable, hshowable⟩ (⟨l, hl, hkind, hlong⟩ | hoperand)
    · exact hreadable l hl hkind hlong
    · obtain ⟨i, l, o, more, v, hl, hkind, htext, hops, ho, hv, hlong⟩ := hoperand
      exact Nat.not_lt.mpr hlong (hshowable i l o more v hl hkind htext hops ho hv)
  · intro hnone
    refine ⟨fun l hl hkind hlong => hnone (.inl ⟨l, hl, hkind, hlong⟩), ?_⟩
    intro i l o more v hl hkind htext hops ho hv
    refine Nat.lt_of_not_le fun hlong => hnone (.inr ?_)
    exact ⟨i, l, o, more, v, hl, hkind, htext, hops, ho, hv, hlong⟩

/-- A document is highlighted exactly when its integers are within the bounds of decimal
    conversion. -/
theorem highlight_returns_iff (h : Highlighter) (hg : h.grammar.Extended) (source : String)
    (version : Json) :
    (∃ s, h.highlight source version = .ok s) ↔ Convertible (h.lexemes source) := by
  rw [convertible_iff, Except.exists_ok_iff, exists_highlight_eq_error_iff hg.sound]

/-- A byte in base sixteen is within the bounds. -/
theorem highlight_returns_byte :
    (∃ s, standard.highlight "#d8 0x7_F" = .ok s) ∧ Convertible (standard.lexemes "#d8 0x7_F") := by
  have hok : ∃ s, standard.highlight "#d8 0x7_F" = .ok s :=
    Except.exists_eq_ok_of_isOk (by with_unfolding_all decide)
  exact ⟨hok, (highlight_returns_iff standard .builtin _ _).mp hok⟩

/-- Zeros alone, which stand for the number zero, can be too long. -/
theorem highlight_zeros_fails : ¬ ∃ s, standard.highlight (String.ofList zeros) = .ok s := by
  intro hok
  refine Except.exists_ok_iff.mp hok ?_
  exact (exists_highlight_eq_error_iff Grammar.builtin_sound).mpr (.inl hasOverlongWord_zeros)

/-- The exact failures of highlighting: an integer that cannot be read, or an operand
    that cannot be shown, and no other fault. Every token carries what is looked up. -/
theorem highlight_fails_iff (h : Highlighter) (hg : h.grammar.Extended) (source : String)
    (version : Json) :
    ((∃ fault, h.highlight source version = .error fault) ↔
      HasOverlongWord (h.lexemes source) ∨
        (¬ HasOverlongWord (h.lexemes source) ∧ HasOverlongOperand (h.lexemes source))) ∧
    (∀ fault, h.highlight source version = .error fault → ∃ cause, fault = .overlong cause) ∧
    (∀ tokens, h.classified source = .ok tokens →
      (∀ t ∈ tokens, t.Equipped h.grammar) ∧
        ∀ labels, ∀ t ∈ (h.resolution labels tokens).1, t.Equipped h.grammar) := by
  refine ⟨?_, fun fault hfault => exists_cause_of_highlight_eq_error hg.sound hfault, ?_⟩
  · rw [exists_highlight_eq_error_iff hg.sound]
    tauto
  · intro tokens hclassified
    refine ⟨(run_of_classified hg.sound hclassified).equipped hg.sound, fun labels => ?_⟩
    exact Directive.equipped_of_mem (seen_resolution hg.sound hclassified labels)

/-- Both ways to fail are met. -/
theorem highlight_fails_both_ways :
    (∃ fault, standard.highlight (String.ofList zeros) = .error fault) ∧
      ∃ fault, standard.highlight wideByte = .error fault := by
  constructor
  · exact (highlight_fails_iff standard .builtin _ _).1.mpr (.inl hasOverlongWord_zeros)
  · refine (highlight_fails_iff standard .builtin _ _).1.mpr ?_
    by_cases hword : HasOverlongWord (standard.lexemes wideByte)
    · exact .inl hword
    · exact .inr ⟨hword, hasOverlongOperand_wideByte⟩

end AsmHighlight.Highlighter
