-- SUMMARY: Which texts are integer literals, and the number each stands for.
import AsmHighlight.Literal.Integer
import AsmHighlight.Proofs.Text.Ascii
import Mathlib.Data.List.Induction
import Mathlib.Data.Nat.Digits.Defs

/-!
# The syntax of integer literals

`IsInteger` says what a literal is and which number it stands for, without
reading it: a sign or none, a base mark or none, and digits with underscores
among them, whose positional value counts. `parseInteger_eq_ok_some_iff` and
`parseInteger_eq_error_iff` say that reading a text finds exactly the literals,
apart from decimal ones that are too long to be read (`IsOverlongDecimal`). The
first two characters tell the base (`IsNumeral.announcedBase_eq`), also when the
underscores are gone.

Texts are taken not to end in a line break here; the words of a document hold none.
-/

namespace AsmHighlight.Decimal

theorem isOverlong_iff {n : Int} : isOverlong n = true ↔ 10 ^ maxDigits ≤ n.natAbs := by
  rw [isOverlong, decide_eq_true_eq, Nat.pow_eq]

theorem isOverlong_eq_false {n : Int} (h : n.natAbs < 10 ^ maxDigits) : isOverlong n = false := by
  rw [← Bool.not_eq_true, isOverlong_iff]
  exact Nat.not_le.mpr h

end AsmHighlight.Decimal

namespace AsmHighlight.Literal

-- ---------------------------------------------------------------------------
-- Syntax
-- ---------------------------------------------------------------------------

/-- The character is the digit of value `d`, in either case. -/
def IsDigitOf (base : Nat) (c : Char) (d : Nat) : Prop :=
  d < base ∧ (c = Text.hexDigit d ∨ c = (Text.hexDigit d).toUpper)

/-- Digits with underscores among them, and the values of the digits. -/
inductive Digits (base : Nat) : List Char → List Nat → Prop where
  | nil : Digits base [] []
  | digit {c : Char} {cs : List Char} {d : Nat} {ds : List Nat} (hd : IsDigitOf base c d)
      (h : Digits base cs ds) : Digits base (c :: cs) (d :: ds)
  | underscore {cs : List Char} {ds : List Nat} (h : Digits base cs ds) :
      Digits base ('_' :: cs) ds

/-- The marks that announce a base after a leading zero. -/
def radixMarks : List (Char × Nat) :=
  [('x', 16), ('X', 16), ('b', 2), ('B', 2), ('o', 8), ('O', 8)]

/-- A number without sign: its base, and its digits from the most significant on. -/
inductive IsNumeral : List Char → (base : Nat) → (digits : List Nat) → Prop where
  | decimal {c : Char} {cs : List Char} {d : Nat} {ds : List Nat} (hd : IsDigitOf 10 c d)
      (h : Digits 10 cs ds) : IsNumeral (c :: cs) 10 (d :: ds)
  | marked {mark c : Char} {base : Nat} {cs : List Char} {d : Nat} {ds : List Nat}
      (hmark : (mark, base) ∈ radixMarks) (hd : IsDigitOf base c d) (h : Digits base cs ds) :
      IsNumeral ('0' :: mark :: c :: cs) base (d :: ds)

/-- The characters are an integer literal that stands for the number. -/
inductive IsInteger : List Char → Int → Prop where
  | plain {cs : List Char} {base : Nat} {ds : List Nat} (h : IsNumeral cs base ds) :
      IsInteger cs (Nat.ofDigits base ds.reverse : Nat)
  | plus {cs : List Char} {base : Nat} {ds : List Nat} (h : IsNumeral cs base ds) :
      IsInteger ('+' :: cs) (Nat.ofDigits base ds.reverse : Nat)
  | minus {cs : List Char} {base : Nat} {ds : List Nat} (h : IsNumeral cs base ds) :
      IsInteger ('-' :: cs) (-(Nat.ofDigits base ds.reverse : Nat))

/-- A decimal digit, then decimal digits and underscores. -/
def IsDecimalBody (cs : List Char) : Prop :=
  ∃ c rest, cs = c :: rest ∧ c.isDigit = true ∧ ∀ x ∈ rest, x.isDigit = true ∨ x = '_'

/-- An optional sign and a decimal number. -/
def IsDecimal (cs : List Char) : Prop :=
  IsDecimalBody cs ∨ ∃ body, (cs = '+' :: body ∨ cs = '-' :: body) ∧ IsDecimalBody body

/-- A decimal number with more digits than decimal conversion handles. -/
def IsOverlongDecimal (cs : List Char) : Prop :=
  IsDecimal cs ∧ Decimal.maxDigits < cs.countP Char.isDigit

-- ---------------------------------------------------------------------------
-- Digits
-- ---------------------------------------------------------------------------

theorem hexValue?_of_isDigitOf {c : Char} {d : Nat} (h : IsDigitOf 16 c d) :
    Text.hexValue? c = some d := by
  have hall : ∀ d < 16, Text.hexValue? (Text.hexDigit d) = some d ∧
      Text.hexValue? (Text.hexDigit d).toUpper = some d := by decide
  obtain ⟨hd, rfl | rfl⟩ := h
  · exact (hall d hd).1
  · exact (hall d hd).2

theorem toNat_lt_of_hexValue? {c : Char} {d : Nat} (h : Text.hexValue? c = some d) :
    c.toNat < 128 := by
  simp only [Text.hexValue?, Char.le_def, UInt32.le_iff_toNat_le] at h
  split at h
  next hc => exact Nat.lt_of_le_of_lt hc.2 (by decide)
  next =>
    split at h
    next hc => exact Nat.lt_of_le_of_lt hc.2 (by decide)
    next =>
      split at h
      next hc => exact Nat.lt_of_le_of_lt hc.2 (by decide)
      next => cases h

theorem hexValue?_eq_some_iff {c : Char} {d : Nat} :
    Text.hexValue? c = some d ↔ IsDigitOf 16 c d := by
  constructor
  · intro h
    have hall : ∀ v ∈ Text.hexValue? c, v < 16 ∧
        (c = Text.hexDigit v ∨ c = (Text.hexDigit v).toUpper) :=
      Text.forall_ascii (P := fun c => ∀ v ∈ Text.hexValue? c, v < 16 ∧
          (c = Text.hexDigit v ∨ c = (Text.hexDigit v).toUpper))
        (by decide) (toNat_lt_of_hexValue? h)
    exact hall d h
  · exact hexValue?_of_isDigitOf

theorem digitOf?_eq_some_iff {base : Nat} (hbase : base ≤ 16) {c : Char} {d : Nat} :
    digitOf? base c = some d ↔ IsDigitOf base c d := by
  rw [digitOf?, Option.filter_eq_some_iff, hexValue?_eq_some_iff]
  simp only [IsDigitOf, decide_eq_true_eq]
  constructor
  · rintro ⟨⟨_, hc⟩, hd⟩
    exact ⟨hd, hc⟩
  · rintro ⟨hd, hc⟩
    exact ⟨⟨by omega, hc⟩, hd⟩

theorem IsDigitOf.ne_underscore {base : Nat} (hbase : base ≤ 16) {c : Char} {d : Nat}
    (h : IsDigitOf base c d) : c ≠ '_' := by
  rintro rfl
  have : digitOf? base '_' = some d := (digitOf?_eq_some_iff hbase).mpr h
  simp [digitOf?, show Text.hexValue? '_' = none by decide] at this

/-- A decimal digit is one of the ten digit characters. -/
theorem isDigitOf_ten_iff {c : Char} : (∃ d, IsDigitOf 10 c d) ↔ c.isDigit = true := by
  constructor
  · have hall : ∀ d < 10, (Text.hexDigit d).isDigit = true ∧
        (Text.hexDigit d).toUpper.isDigit = true := by decide
    rintro ⟨d, hd, rfl | rfl⟩
    · exact (hall d hd).1
    · exact (hall d hd).2
  · intro h
    have hpart : isNamePart c = true := by simp [isNamePart, h]
    have hall : c.isDigit = true → (digitOf? 10 c).isSome = true :=
      Text.forall_ascii (P := fun c => c.isDigit = true → (digitOf? 10 c).isSome = true)
        (by decide) (toNat_lt_of_isNamePart hpart)
    obtain ⟨d, hd⟩ := Option.isSome_iff_exists.mp (hall h)
    exact ⟨d, (digitOf?_eq_some_iff (by decide)).mp hd⟩

/-- Reading digits and underscores finds exactly the values of the digits. -/
theorem separatedDigits?_eq_some_iff {base : Nat} (hbase : base ≤ 16) {cs : List Char}
    {ds : List Nat} : separatedDigits? base cs = some ds ↔ Digits base cs ds := by
  constructor
  · intro h
    fun_induction separatedDigits? base cs generalizing ds with
    | case1 =>
      cases h
      exact .nil
    | case2 rest ih => exact .underscore (ih h)
    | case3 c rest hc d ds' hds hd ih =>
      cases h
      exact .digit ((digitOf?_eq_some_iff hbase).mp hd) (ih hds)
    | case4 => cases h
  · intro h
    induction h with
    | nil => rfl
    | digit hd _ ih =>
      rw [separatedDigits?, if_neg (hd.ne_underscore hbase),
        (digitOf?_eq_some_iff hbase).mpr hd, ih]
    | underscore _ ih => rw [separatedDigits?, if_pos rfl, ih]

/-- Reading a number's digits finds exactly what starts with a digit. -/
theorem digits?_eq_some_iff {base : Nat} (hbase : base ≤ 16) {cs : List Char} {ds : List Nat} :
    digits? base cs = some ds ↔ ∃ c rest d ds', cs = c :: rest ∧ ds = d :: ds' ∧
      IsDigitOf base c d ∧ Digits base rest ds' := by
  constructor
  · intro h
    unfold digits? at h
    split at h
    next => cases h
    next c rest =>
      split at h
      next => cases h
      next hc =>
        cases (separatedDigits?_eq_some_iff hbase).mp h with
        | digit hd hrest => exact ⟨c, rest, _, _, rfl, rfl, hd, hrest⟩
        | underscore => exact absurd rfl hc
  · rintro ⟨c, rest, d, ds', rfl, rfl, hd, hrest⟩
    rw [digits?, if_neg (hd.ne_underscore hbase)]
    exact (separatedDigits?_eq_some_iff hbase).mpr (.digit hd hrest)

-- ---------------------------------------------------------------------------
-- Numerals
-- ---------------------------------------------------------------------------

theorem radix?_eq_some_iff {mark : Char} {base : Nat} :
    radix? mark = some base ↔ (mark, base) ∈ radixMarks := by
  simp only [radix?, radixMarks, List.mem_cons, Prod.mk.injEq, List.not_mem_nil, or_false]
  split
  next h => rcases h with rfl | rfl <;> simp [eq_comm]
  next =>
    split
    next h => rcases h with rfl | rfl <;> simp [eq_comm]
    next =>
      split
      next h => rcases h with rfl | rfl <;> simp [eq_comm]
      next => simp_all

theorem le_sixteen_of_mem_radixMarks {mark : Char} {base : Nat} (h : (mark, base) ∈ radixMarks) :
    base ≤ 16 ∧ base ≠ 10 := by
  have hall : ∀ m ∈ radixMarks, m.2 ≤ 16 ∧ m.2 ≠ 10 := by decide
  exact hall _ h

/-- A base mark is neither a decimal digit nor an underscore. -/
theorem not_digits_of_mem_radixMarks {mark : Char} {base : Nat} {rest : List Char} {ds : List Nat}
    (h : (mark, base) ∈ radixMarks) : ¬ Digits 10 (mark :: rest) ds := by
  have hall : ∀ m ∈ radixMarks, digitOf? 10 m.1 = none ∧ m.1 ≠ '_' := by decide
  obtain ⟨hnone, hne⟩ := hall _ h
  intro hds
  cases hds with
  | digit hd _ => rw [(digitOf?_eq_some_iff (by decide)).mpr hd] at hnone; cases hnone
  | underscore _ => exact hne rfl

/-- Reading finds exactly the numerals. -/
theorem numeral?_eq_some_iff {cs : List Char} {base : Nat} {ds : List Nat} :
    numeral? cs = some ⟨base, ds⟩ ↔ IsNumeral cs base ds := by
  have hdecimal : (digits? 10 cs).map (Numeral.mk 10) = some ⟨base, ds⟩ → IsNumeral cs base ds := by
    intro h
    obtain ⟨ds', hds, heq⟩ := Option.map_eq_some_iff.mp h
    cases heq
    obtain ⟨c, rest, d, ds', rfl, rfl, hd, hrest⟩ := (digits?_eq_some_iff (by decide)).mp hds
    exact .decimal hd hrest
  constructor
  · intro h
    unfold numeral? at h
    split at h
    next mark rest =>
      split at h
      next base' hmark =>
        obtain ⟨ds', hds, heq⟩ := Option.map_eq_some_iff.mp h
        cases heq
        have hmem := radix?_eq_some_iff.mp hmark
        obtain ⟨c, rest, d, ds', rfl, rfl, hd, hrest⟩ :=
          (digits?_eq_some_iff (le_sixteen_of_mem_radixMarks hmem).1).mp hds
        exact .marked hmem hd hrest
      next => exact hdecimal h
    next => exact hdecimal h
  · intro h
    cases h with
    | @decimal c cs d ds hd hrest =>
      have hds : digits? 10 (c :: cs) = some (d :: ds) :=
        (digits?_eq_some_iff (by decide)).mpr ⟨c, cs, d, ds, rfl, rfl, hd, hrest⟩
      unfold numeral?
      split
      next mark rest heq =>
        cases heq
        -- What follows the zero is a decimal digit or an underscore, so no mark.
        have hnone : radix? mark = none := by
          cases hmark : radix? mark with
          | none => rfl
          | some base =>
            exact absurd hrest (not_digits_of_mem_radixMarks (radix?_eq_some_iff.mp hmark))
        rw [hnone, hds]
        rfl
      next => rw [hds]; rfl
    | @marked mark c base cs d ds hmark hd hrest =>
      have hds : digits? base (c :: cs) = some (d :: ds) :=
        (digits?_eq_some_iff (le_sixteen_of_mem_radixMarks hmark).1).mpr
          ⟨c, cs, d, ds, rfl, rfl, hd, hrest⟩
      simp only [numeral?, radix?_eq_some_iff.mpr hmark, hds, Option.map_some]

/-- A numeral starts with a digit. -/
theorem IsNumeral.head {cs : List Char} {base : Nat} {ds : List Nat} (h : IsNumeral cs base ds) :
    ∃ c rest, cs = c :: rest ∧ c.isDigit = true := by
  cases h with
  | @decimal c cs d ds hd _ => exact ⟨c, cs, rfl, isDigitOf_ten_iff.mp ⟨d, hd⟩⟩
  | @marked mark c base cs d ds _ _ _ => exact ⟨'0', mark :: c :: cs, rfl, rfl⟩

theorem IsNumeral.unique {cs : List Char} {base base' : Nat} {ds ds' : List Nat}
    (h : IsNumeral cs base ds) (h' : IsNumeral cs base' ds') : base = base' ∧ ds = ds' := by
  have heq := (numeral?_eq_some_iff.mpr h).symm.trans (numeral?_eq_some_iff.mpr h')
  cases heq
  exact ⟨rfl, rfl⟩

/-- Folding digits gives their positional value. -/
theorem ofDigits_eq (base : Nat) (ds : List Nat) :
    Decimal.ofDigits base ds = Nat.ofDigits base ds.reverse := by
  induction ds using List.reverseRecOn with
  | nil => rfl
  | append_singleton ds d ih =>
    rw [Decimal.ofDigits, List.foldl_append, List.foldl_cons, List.foldl_nil,
      ← Decimal.ofDigits, ih, List.reverse_append, List.reverse_singleton, List.singleton_append,
      Nat.ofDigits_cons]
    ring

-- ---------------------------------------------------------------------------
-- Decimal numbers
-- ---------------------------------------------------------------------------

theorem Digits.length_eq {cs : List Char} {ds : List Nat} (h : Digits 10 cs ds) :
    ds.length = cs.countP Char.isDigit := by
  induction h with
  | nil => rfl
  | digit hd _ ih =>
    rw [List.length_cons, ih, List.countP_cons_of_pos (isDigitOf_ten_iff.mp ⟨_, hd⟩)]
  | underscore _ ih => rw [ih, List.countP_cons_of_neg (by decide)]

theorem exists_digits_ten_iff {cs : List Char} :
    (∃ ds, Digits 10 cs ds) ↔ ∀ x ∈ cs, x.isDigit = true ∨ x = '_' := by
  constructor
  · rintro ⟨ds, h⟩
    induction h with
    | nil => simp
    | digit hd _ ih =>
      intro x hx
      rcases List.mem_cons.mp hx with rfl | hx
      · exact .inl (isDigitOf_ten_iff.mp ⟨_, hd⟩)
      · exact ih x hx
    | underscore _ ih =>
      intro x hx
      rcases List.mem_cons.mp hx with rfl | hx
      · exact .inr rfl
      · exact ih x hx
  · intro h
    induction cs with
    | nil => exact ⟨[], .nil⟩
    | cons c cs ih =>
      obtain ⟨ds, hds⟩ := ih fun x hx => h x (List.mem_cons_of_mem _ hx)
      rcases h c (List.mem_cons_self ..) with hc | rfl
      · obtain ⟨d, hd⟩ := isDigitOf_ten_iff.mpr hc
        exact ⟨d :: ds, .digit hd hds⟩
      · exact ⟨ds, .underscore hds⟩

theorem exists_isNumeral_ten_iff {cs : List Char} :
    (∃ ds, IsNumeral cs 10 ds) ↔ IsDecimalBody cs := by
  constructor
  · rintro ⟨ds, h⟩
    cases h with
    | @decimal c cs d ds hd h =>
      exact ⟨c, cs, rfl, isDigitOf_ten_iff.mp ⟨d, hd⟩, exists_digits_ten_iff.mp ⟨ds, h⟩⟩
    | marked hmark _ _ => exact absurd rfl (le_sixteen_of_mem_radixMarks hmark).2
  · rintro ⟨c, rest, rfl, hc, hrest⟩
    obtain ⟨d, hd⟩ := isDigitOf_ten_iff.mpr hc
    obtain ⟨ds, hds⟩ := exists_digits_ten_iff.mpr hrest
    exact ⟨d :: ds, .decimal hd hds⟩

theorem IsNumeral.length_eq {cs : List Char} {ds : List Nat} (h : IsNumeral cs 10 ds) :
    ds.length = cs.countP Char.isDigit := by
  cases h with
  | decimal hd h => exact (Digits.digit hd h).length_eq
  | marked hmark _ _ => exact absurd rfl (le_sixteen_of_mem_radixMarks hmark).2

-- ---------------------------------------------------------------------------
-- Signs
-- ---------------------------------------------------------------------------

/-- What starts with a digit has no sign. -/
theorem splitSign_of_isDigit {c : Char} (hc : c.isDigit = true) (rest : List Char) :
    splitSign (c :: rest) = (false, c :: rest) := by
  unfold splitSign
  split
  next heq => cases heq; cases hc
  next heq => cases heq; cases hc
  next => rfl

theorem IsNumeral.splitSign_eq {cs : List Char} {base : Nat} {ds : List Nat}
    (h : IsNumeral cs base ds) : splitSign cs = (false, cs) := by
  obtain ⟨c, rest, rfl, hc⟩ := h.head
  exact splitSign_of_isDigit hc rest

/-- A sign is no digit. -/
theorem countP_isDigit_splitSign (cs : List Char) :
    (splitSign cs).2.countP Char.isDigit = cs.countP Char.isDigit := by
  unfold splitSign
  split
  next => rw [List.countP_cons_of_neg (by decide)]
  next => rw [List.countP_cons_of_neg (by decide)]
  next => rfl

/-- A literal is a numeral behind its sign. -/
theorem isInteger_iff {cs : List Char} {v : Int} :
    IsInteger cs v ↔ ∃ base ds, IsNumeral (splitSign cs).2 base ds ∧
      v = if (splitSign cs).1 then -(Decimal.ofDigits base ds : Int)
        else Decimal.ofDigits base ds := by
  simp only [ofDigits_eq]
  constructor
  · intro h
    cases h with
    | @plain cs base ds h =>
      rw [h.splitSign_eq]
      exact ⟨base, ds, h, rfl⟩
    | @plus cs base ds h => exact ⟨base, ds, h, rfl⟩
    | @minus cs base ds h => exact ⟨base, ds, h, rfl⟩
  · rintro ⟨base, ds, h, rfl⟩
    unfold splitSign at h ⊢
    split at h
    next => exact .minus h
    next => exact .plus h
    next => exact .plain h

/-- A literal stands for one number only. -/
theorem IsInteger.unique {cs : List Char} {v w : Int} (hv : IsInteger cs v) (hw : IsInteger cs w) :
    v = w := by
  obtain ⟨base, ds, hnum, rfl⟩ := isInteger_iff.mp hv
  obtain ⟨base', ds', hnum', rfl⟩ := isInteger_iff.mp hw
  obtain ⟨rfl, rfl⟩ := hnum.unique hnum'
  rfl

/-- A decimal number that is too long is a numeral of too many digits behind its sign. -/
theorem isOverlongDecimal_iff {cs : List Char} :
    IsOverlongDecimal cs ↔ ∃ ds, IsNumeral (splitSign cs).2 10 ds ∧
      ds.length = cs.countP Char.isDigit ∧ Decimal.maxDigits < ds.length := by
  constructor
  · rintro ⟨hcs, hlen⟩
    have hbody : IsDecimalBody (splitSign cs).2 := by
      rcases hcs with hbody | ⟨body, rfl | rfl, hbody⟩
      · obtain ⟨c, rest, rfl, hc, _⟩ := id hbody
        rwa [splitSign_of_isDigit hc]
      · exact hbody
      · exact hbody
    obtain ⟨ds, h⟩ := exists_isNumeral_ten_iff.mpr hbody
    have hcount : ds.length = cs.countP Char.isDigit := by
      rw [h.length_eq, countP_isDigit_splitSign]
    exact ⟨ds, h, hcount, by rw [hcount]; exact hlen⟩
  · rintro ⟨ds, h, hcount, hlen⟩
    refine ⟨?_, by rw [← hcount]; exact hlen⟩
    unfold splitSign at h
    split at h
    next body => exact .inr ⟨body, .inr rfl, exists_isNumeral_ten_iff.mp ⟨ds, h⟩⟩
    next body => exact .inr ⟨body, .inl rfl, exists_isNumeral_ten_iff.mp ⟨ds, h⟩⟩
    next => exact .inl (exists_isNumeral_ten_iff.mp ⟨ds, h⟩)

/-- A numeral behind a sign makes a text start like a number. -/
theorem startsNumeric_of_isNumeral {text : String} {base : Nat} {ds : List Nat}
    (h : IsNumeral (splitSign text.toList).2 base ds) : startsNumeric text = true := by
  obtain ⟨c, rest, heq, hc⟩ := h.head
  rw [startsNumeric, heq]
  exact hc

-- ---------------------------------------------------------------------------
-- Reading
-- ---------------------------------------------------------------------------

theorem IsInteger.startsNumeric {text : String} {v : Int} (h : IsInteger text.toList v) :
    startsNumeric text = true := by
  obtain ⟨_, _, hnum, _⟩ := isInteger_iff.mp h
  exact startsNumeric_of_isNumeral hnum

theorem IsOverlongDecimal.startsNumeric {text : String} (h : IsOverlongDecimal text.toList) :
    startsNumeric text = true := by
  obtain ⟨_, hnum, _⟩ := isOverlongDecimal_iff.mp h
  exact startsNumeric_of_isNumeral hnum

section Reading

variable {text : String} (hend : text.toList.getLast? ≠ some '\n')

include hend

theorem parseInteger_of_numeral?_eq_none (h : numeral? (splitSign text.toList).2 = none) :
    parseInteger text = .ok none := by
  simp only [parseInteger, withoutFinalBreak_of_getLast?_ne hend, h]

theorem parseInteger_of_isNumeral {base : Nat} {ds : List Nat}
    (h : IsNumeral (splitSign text.toList).2 base ds) :
    parseInteger text = (Numeral.value ⟨base, ds⟩).map fun v =>
      some (if (splitSign text.toList).1 then -(v : Int) else v) := by
  simp only [parseInteger, withoutFinalBreak_of_getLast?_ne hend, numeral?_eq_some_iff.mpr h]

/-- A decimal number that is too long is not read. -/
theorem parseInteger_of_isOverlongDecimal (h : IsOverlongDecimal text.toList) :
    parseInteger text = .error (.reading (text.toList.countP Char.isDigit)) := by
  obtain ⟨ds, hnum, hcount, hlen⟩ := isOverlongDecimal_iff.mp h
  have hvalue : Numeral.value ⟨10, ds⟩ = .error (.reading ds.length) := by
    simp only [Numeral.value, Decimal.read, if_true]
    rw [if_neg (by omega)]
  rw [parseInteger_of_isNumeral hend hnum, hvalue, hcount]
  rfl

/-- Any other literal is read as the number that it stands for. -/
theorem parseInteger_of_isInteger {v : Int} (h : IsInteger text.toList v)
    (hlen : ¬ IsOverlongDecimal text.toList) : parseInteger text = .ok (some v) := by
  obtain ⟨base, ds, hnum, rfl⟩ := isInteger_iff.mp h
  have hvalue : Numeral.value ⟨base, ds⟩ = .ok (Decimal.ofDigits base ds) := by
    simp only [Numeral.value]
    split
    next hbase =>
      subst hbase
      have hcount : ds.length = text.toList.countP Char.isDigit := by
        rw [hnum.length_eq, countP_isDigit_splitSign]
      rw [Decimal.read, if_pos]
      by_contra hlong
      exact hlen (isOverlongDecimal_iff.mpr ⟨ds, hnum, hcount, by omega⟩)
    next => rfl
  rw [parseInteger_of_isNumeral hend hnum, hvalue]
  rfl

/-- Reading gives a number exactly for the literals that are not too long, and it is
    the number that the literal stands for. -/
theorem parseInteger_eq_ok_some_iff {v : Int} :
    parseInteger text = .ok (some v) ↔
      IsInteger text.toList v ∧ ¬ IsOverlongDecimal text.toList := by
  constructor
  · intro h
    have hlen : ¬ IsOverlongDecimal text.toList := by
      intro hlong
      rw [parseInteger_of_isOverlongDecimal hend hlong] at h
      cases h
    refine ⟨?_, hlen⟩
    cases hn : numeral? (splitSign text.toList).2 with
    | none => rw [parseInteger_of_numeral?_eq_none hend hn] at h; cases h
    | some n =>
      have hint := isInteger_iff.mpr ⟨_, _, numeral?_eq_some_iff.mp hn, rfl⟩
      rw [parseInteger_of_isInteger hend hint hlen] at h
      cases h
      exact hint
  · rintro ⟨h, hlen⟩
    exact parseInteger_of_isInteger hend h hlen

/-- Reading fails exactly on the decimal numbers that are too long, and the fault
    tells the number of their digits. -/
theorem parseInteger_eq_error_iff {cause : Decimal.Overlong} :
    parseInteger text = .error cause ↔ IsOverlongDecimal text.toList ∧
      cause = .reading (text.toList.countP Char.isDigit) := by
  constructor
  · intro h
    by_cases hlong : IsOverlongDecimal text.toList
    · rw [parseInteger_of_isOverlongDecimal hend hlong] at h
      cases h
      exact ⟨hlong, rfl⟩
    · cases hn : numeral? (splitSign text.toList).2 with
      | none => rw [parseInteger_of_numeral?_eq_none hend hn] at h; cases h
      | some n =>
        have hint := isInteger_iff.mpr ⟨_, _, numeral?_eq_some_iff.mp hn, rfl⟩
        rw [parseInteger_of_isInteger hend hint hlong] at h
        cases h
  · rintro ⟨hlong, rfl⟩
    exact parseInteger_of_isOverlongDecimal hend hlong

end Reading

-- ---------------------------------------------------------------------------
-- Underscores
-- ---------------------------------------------------------------------------

/-- The characters without underscores. -/
def withoutUnderscores (cs : List Char) : List Char :=
  cs.filter (· ≠ '_')

/-- The base that the first two characters announce. -/
def announcedBase : List Char → Nat
  | '0' :: mark :: _ => (radix? mark).getD 10
  | _ => 10

theorem Digits.withoutUnderscores {base : Nat} (hbase : base ≤ 16) {cs : List Char} {ds : List Nat}
    (h : Digits base cs ds) : Digits base (withoutUnderscores cs) ds := by
  induction h with
  | nil => exact .nil
  | digit hd _ ih =>
    rw [Literal.withoutUnderscores, List.filter_cons_of_pos (by simpa using hd.ne_underscore hbase)]
    exact .digit hd ih
  | underscore _ ih =>
    rw [Literal.withoutUnderscores, List.filter_cons_of_neg (by simp)]
    exact ih

/-- A numeral loses nothing with its underscores. -/
theorem IsNumeral.withoutUnderscores {cs : List Char} {base : Nat} {ds : List Nat}
    (h : IsNumeral cs base ds) : IsNumeral (withoutUnderscores cs) base ds := by
  cases h with
  | decimal hd h =>
    have hne := hd.ne_underscore (by decide)
    rw [Literal.withoutUnderscores, List.filter_cons_of_pos (by simpa using hne)]
    exact .decimal hd (h.withoutUnderscores (by decide))
  | @marked mark c base cs d ds hmark hd h =>
    have hbase := (le_sixteen_of_mem_radixMarks hmark).1
    have hall : ∀ m ∈ radixMarks, m.1 ≠ '_' := by decide
    have hne : mark ≠ '_' := hall _ hmark
    rw [Literal.withoutUnderscores, List.filter_cons_of_pos (by decide),
      List.filter_cons_of_pos (by simpa using hne),
      List.filter_cons_of_pos (by simpa using hd.ne_underscore hbase)]
    exact .marked hmark hd (h.withoutUnderscores hbase)

/-- The first two characters of a numeral tell its base: what comes second in a decimal
    number is a digit or an underscore, and no mark is either. -/
theorem IsNumeral.announcedBase_eq {cs : List Char} {base : Nat} {ds : List Nat}
    (h : IsNumeral cs base ds) : announcedBase cs = base := by
  cases h with
  | decimal hd h =>
    unfold announcedBase
    split
    next mark rest heq =>
      obtain ⟨-, rfl⟩ := List.cons.inj heq
      have hnone : radix? mark = none := by
        refine Option.eq_none_iff_forall_ne_some.mpr fun base hmark => ?_
        exact not_digits_of_mem_radixMarks (radix?_eq_some_iff.mp hmark) h
      rw [hnone]
      rfl
    next => rfl
  | marked hmark _ _ =>
    rw [announcedBase, radix?_eq_some_iff.mpr hmark]
    rfl

-- ---------------------------------------------------------------------------
-- Every text
-- ---------------------------------------------------------------------------

theorem exists_isInteger_iff {cs : List Char} :
    (∃ v, IsInteger cs v) ↔ ∃ base ds, IsNumeral (splitSign cs).2 base ds := by
  simp only [isInteger_iff]
  constructor
  · rintro ⟨v, base, ds, hnum, -⟩
    exact ⟨base, ds, hnum⟩
  · rintro ⟨base, ds, hnum⟩
    exact ⟨_, base, ds, hnum, rfl⟩

/-- A text is read as what it is: a literal as its number, a decimal number that is too long
    as a fault that tells its digits, and any other text as nothing. The base of a literal
    can be told as well when its underscores are gone. -/
theorem parseInteger_reads {text : String} (hend : text.toList.getLast? ≠ some '\n') :
    (∀ v, parseInteger text = .ok (some v) ↔
      IsInteger text.toList v ∧ ¬ IsOverlongDecimal text.toList) ∧
    (∀ cause, parseInteger text = .error cause ↔ IsOverlongDecimal text.toList ∧
      cause = .reading (text.toList.countP Char.isDigit)) ∧
    (parseInteger text = .ok none ↔ ¬ ∃ v, IsInteger text.toList v) ∧
    ∀ base ds, IsNumeral (splitSign text.toList).2 base ds →
      announcedBase (withoutUnderscores (splitSign text.toList).2) = base := by
  refine ⟨fun v => parseInteger_eq_ok_some_iff hend, fun _ => parseInteger_eq_error_iff hend, ?_,
    fun base ds hnum => hnum.withoutUnderscores.announcedBase_eq⟩
  constructor
  · rintro h ⟨v, hv⟩
    by_cases hlong : IsOverlongDecimal text.toList
    · rw [parseInteger_of_isOverlongDecimal hend hlong] at h
      cases h
    · rw [parseInteger_of_isInteger hend hv hlong] at h
      cases h
  · intro hnone
    refine parseInteger_of_numeral?_eq_none hend (Option.eq_none_iff_forall_ne_some.mpr ?_)
    intro n hn
    exact hnone (exists_isInteger_iff.mpr ⟨n.base, n.digits, numeral?_eq_some_iff.mp hn⟩)

/-- The letter of the base may be a capital, and underscores may stand anywhere behind the
    first digit. -/
theorem parseInteger_reads_hexadecimal :
    "-0Xf_F_".toList.getLast? ≠ some '\n' ∧ parseInteger "-0Xf_F_" = .ok (some (-255)) ∧
      IsInteger "-0Xf_F_".toList (-255) ∧ ¬ IsOverlongDecimal "-0Xf_F_".toList := by
  have hend : "-0Xf_F_".toList.getLast? ≠ some '\n' := by decide
  have hread : parseInteger "-0Xf_F_" = .ok (some (-255)) := by with_unfolding_all rfl
  exact ⟨hend, hread, ((parseInteger_reads hend).1 (-255)).mp hread⟩

end AsmHighlight.Literal
