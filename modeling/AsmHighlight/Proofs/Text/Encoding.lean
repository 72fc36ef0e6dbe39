-- SUMMARY: Reading UTF-8 is the inverse of writing it.
import AsmHighlight.Proofs.Except
import AsmHighlight.Text.Encoding

/-!
# UTF-8 is read back

`String.utf8EncodeChar` says how a character is written in UTF-8. The decoder,
which works from the shape of the first byte of a sequence, reads exactly what
can be written so: a sequence is complete if and only if it is the encoding of
some character (`isSequence_iff`), and a file is decoded to a text if and only if
its bytes are the encodings of the text's characters (`decode_utf8_eq_ok_iff`).
-/

namespace AsmHighlight.Text

-- ---------------------------------------------------------------------------
-- The shape of sequences
-- ---------------------------------------------------------------------------

section Shape

variable {first length low high : Nat}

theorem sequenceShape_one (h : first < 0x80) : sequenceShape first = some (1, 0, 0) := by
  rw [sequenceShape, if_pos h]

theorem sequenceShape_two (h : 0xC2 ≤ first ∧ first < 0xE0) :
    sequenceShape first = some (2, 0x80, 0xBF) := by
  rw [sequenceShape, if_neg (by omega), if_neg (by omega), if_pos h.2]

theorem sequenceShape_three (h : 0xE0 ≤ first ∧ first < 0xF0) :
    sequenceShape first =
      some (3, if first = 0xE0 then 0xA0 else 0x80, if first = 0xED then 0x9F else 0xBF) := by
  rw [sequenceShape, if_neg (by omega), if_neg (by omega), if_neg (by omega)]
  by_cases hE0 : first = 0xE0
  · rw [if_pos hE0, if_pos hE0, if_neg (by omega)]
  by_cases hED : first = 0xED
  · rw [if_neg hE0, if_neg hE0, if_pos hED, if_pos hED]
  · rw [if_neg hE0, if_neg hE0, if_neg hED, if_neg hED, if_pos h.2]

theorem sequenceShape_four (h : 0xF0 ≤ first ∧ first ≤ 0xF4) :
    sequenceShape first =
      some (4, if first = 0xF0 then 0x90 else 0x80, if first = 0xF4 then 0x8F else 0xBF) := by
  rw [sequenceShape, if_neg (by omega), if_neg (by omega), if_neg (by omega), if_neg (by omega),
    if_neg (by omega), if_neg (by omega)]
  by_cases hF0 : first = 0xF0
  · rw [if_pos hF0, if_pos hF0, if_neg (by omega)]
  by_cases hF4 : first = 0xF4
  · rw [if_neg hF0, if_neg hF0, if_neg (by omega), if_pos hF4, if_pos hF4]
  · rw [if_neg hF0, if_neg hF0, if_pos (by omega), if_neg hF4]

theorem sequenceShape_none (h : (0x80 ≤ first ∧ first < 0xC2) ∨ 0xF4 < first) :
    sequenceShape first = none := by
  rw [sequenceShape, if_neg (by omega)]
  by_cases hC2 : first < 0xC2
  · rw [if_pos hC2]
  · rw [if_neg hC2, if_neg (by omega), if_neg (by omega), if_neg (by omega), if_neg (by omega),
      if_neg (by omega), if_neg (by omega), if_neg (by omega)]

/-- The shapes of sequences by their length. The bounds of the second byte are narrower
    where overlong forms, surrogates and code points beyond the last one would start. -/
theorem sequenceShape_cases (h : sequenceShape first = some (length, low, high)) :
    (length = 1 ∧ first < 0x80) ∨
    (length = 2 ∧ 0xC2 ≤ first ∧ first < 0xE0 ∧ 0x80 ≤ low ∧ high ≤ 0xBF) ∨
    (length = 3 ∧ 0xE0 ≤ first ∧ first < 0xF0 ∧ 0x80 ≤ low ∧ high ≤ 0xBF ∧
      (first = 0xE0 → 0xA0 ≤ low) ∧ (first = 0xED → high ≤ 0x9F)) ∨
    (length = 4 ∧ 0xF0 ≤ first ∧ first ≤ 0xF4 ∧ 0x80 ≤ low ∧ high ≤ 0xBF ∧
      (first = 0xF0 → 0x90 ≤ low) ∧ (first = 0xF4 → high ≤ 0x8F)) := by
  rcases Nat.lt_or_ge first 0x80 with hone | hge
  · rw [sequenceShape_one hone] at h
    cases h
    exact .inl ⟨rfl, hone⟩
  rcases Nat.lt_or_ge first 0xC2 with hnone | htwo
  · rw [sequenceShape_none (.inl ⟨hge, hnone⟩)] at h
    cases h
  rcases Nat.lt_or_ge first 0xE0 with hlt | hthree
  · rw [sequenceShape_two ⟨htwo, hlt⟩] at h
    cases h
    exact .inr (.inl ⟨rfl, htwo, hlt, Nat.le_refl _, Nat.le_refl _⟩)
  rcases Nat.lt_or_ge first 0xF0 with hlt | hfour
  · rw [sequenceShape_three ⟨hthree, hlt⟩] at h
    cases h
    refine .inr (.inr (.inl ⟨rfl, hthree, hlt, ?_, ?_, fun hE0 => ?_, fun hED => ?_⟩))
    · split <;> omega
    · split <;> omega
    · exact Nat.le_of_eq (if_pos hE0).symm
    · exact Nat.le_of_eq (if_pos hED)
  rcases Nat.lt_or_ge 0xF4 first with hnone | hle
  · rw [sequenceShape_none (.inr hnone)] at h
    cases h
  · rw [sequenceShape_four ⟨hfour, hle⟩] at h
    cases h
    refine .inr (.inr (.inr ⟨rfl, hfour, hle, ?_, ?_, fun hF0 => ?_, fun hF4 => ?_⟩))
    · split <;> omega
    · split <;> omega
    · exact Nat.le_of_eq (if_pos hF0).symm
    · exact Nat.le_of_eq (if_pos hF4)

end Shape

/-- Continuation bytes are read one by one. -/
theorem readContinuation_succ_eq_complete_iff {missing low high code read value : Nat}
    {bytes tail : List UInt8} :
    readContinuation (missing + 1) low high code read bytes = .complete value tail ↔
      ∃ b rest, bytes = b :: rest ∧ low ≤ b.toNat ∧ b.toNat ≤ high ∧
        readContinuation missing 0x80 0xBF (code * 0x40 + b.toNat % 0x40) (read + 1) rest =
          .complete value tail := by
  cases bytes with
  | nil => simp [readContinuation]
  | cons b rest =>
    rw [readContinuation]
    constructor
    · intro h
      split at h
      next hb => exact ⟨b, rest, rfl, hb.1, hb.2, h⟩
      next => cases h
    · rintro ⟨_, _, hbytes, hlow, hhigh, h⟩
      cases hbytes
      rw [if_pos ⟨hlow, hhigh⟩, h]

theorem readContinuation_zero_eq_complete_iff {low high code read value : Nat}
    {bytes tail : List UInt8} :
    readContinuation 0 low high code read bytes = .complete value tail ↔
      code = value ∧ bytes = tail := by
  rw [readContinuation, Continuation.complete.injEq]

-- ---------------------------------------------------------------------------
-- Well-formed sequences
-- ---------------------------------------------------------------------------

/-- A byte that goes on with a sequence. -/
def IsContinuation (b : UInt8) : Prop :=
  0x80 ≤ b.toNat ∧ b.toNat ≤ 0xBF

/-- The bytes are a well-formed sequence with the value `code`. -/
inductive WellFormed : (bytes : List UInt8) → (code : Nat) → Prop where
  | one {a : UInt8} (ha : a.toNat < 0x80) : WellFormed [a] a.toNat
  | two {a b : UInt8} (ha : 0xC2 ≤ a.toNat ∧ a.toNat < 0xE0) (hb : IsContinuation b) :
      WellFormed [a, b] (a.toNat % 0x20 * 0x40 + b.toNat % 0x40)
  | three {a b c : UInt8} (ha : 0xE0 ≤ a.toNat ∧ a.toNat < 0xF0) (hb : IsContinuation b)
      (hshort : a.toNat = 0xE0 → 0xA0 ≤ b.toNat) (hscalar : a.toNat = 0xED → b.toNat ≤ 0x9F)
      (hc : IsContinuation c) :
      WellFormed [a, b, c] ((a.toNat % 0x10 * 0x40 + b.toNat % 0x40) * 0x40 + c.toNat % 0x40)
  | four {a b c d : UInt8} (ha : 0xF0 ≤ a.toNat ∧ a.toNat ≤ 0xF4) (hb : IsContinuation b)
      (hshort : a.toNat = 0xF0 → 0x90 ≤ b.toNat) (hscalar : a.toNat = 0xF4 → b.toNat ≤ 0x8F)
      (hc : IsContinuation c) (hd : IsContinuation d) :
      WellFormed [a, b, c, d]
        (((a.toNat % 0x08 * 0x40 + b.toNat % 0x40) * 0x40 + c.toNat % 0x40) * 0x40 +
          d.toNat % 0x40)

theorem ofNat_eq_of_eq_toNat {n : Nat} {b : UInt8} (h : n = b.toNat) : UInt8.ofNat n = b := by
  rw [h, UInt8.ofNat_toNat]

/-- The value of a well-formed sequence is a code point. -/
theorem WellFormed.exists_char {bytes : List UInt8} {code : Nat} (h : WellFormed bytes code) :
    ∃ c : Char, c.toNat = code := by
  have hvalid : code.isValidChar := by
    simp only [Nat.isValidChar]
    cases h with
    | one => omega
    | two => omega
    | three ha hb hshort hscalar hc => simp only [IsContinuation] at hb hc; omega
    | four ha hb hshort hscalar hc hd => simp only [IsContinuation] at hb hc hd; omega
  refine ⟨Char.ofNat code, ?_⟩
  rw [Char.ofNat, dif_pos hvalid]
  rfl

/-- A well-formed sequence is the encoding of its value. -/
theorem WellFormed.eq_utf8EncodeChar {bytes : List UInt8} {c : Char}
    (h : WellFormed bytes c.toNat) : bytes = String.utf8EncodeChar c := by
  have hv : c.val.toNat = c.toNat := rfl
  simp only [String.utf8EncodeChar, hv]
  generalize c.toNat = v at h
  cases h with
  | one ha => rw [if_pos (by omega), UInt8.ofNat_toNat]
  | @two a b ha hb =>
    simp only [IsContinuation] at hb
    rw [if_neg (by omega), if_pos (by omega), ofNat_eq_of_eq_toNat (b := a) (by omega),
      ofNat_eq_of_eq_toNat (b := b) (by omega)]
  | @three a b c ha hb hshort _ hc =>
    simp only [IsContinuation] at hb hc
    rw [if_neg (by omega), if_neg (by omega), if_pos (by omega),
      ofNat_eq_of_eq_toNat (b := a) (by omega), ofNat_eq_of_eq_toNat (b := b) (by omega),
      ofNat_eq_of_eq_toNat (b := c) (by omega)]
  | @four a b c d ha hb hshort _ hc hd =>
    simp only [IsContinuation] at hb hc hd
    rw [if_neg (by omega), if_neg (by omega), if_neg (by omega),
      ofNat_eq_of_eq_toNat (b := a) (by omega), ofNat_eq_of_eq_toNat (b := b) (by omega),
      ofNat_eq_of_eq_toNat (b := c) (by omega), ofNat_eq_of_eq_toNat (b := d) (by omega)]

theorem WellFormed.of_eq {bytes : List UInt8} {code code' : Nat} (h : WellFormed bytes code)
    (heq : code = code') : WellFormed bytes code' :=
  heq ▸ h

/-- The encoding of a character is well-formed: code points leave out the surrogates. -/
theorem wellFormed_utf8EncodeChar (c : Char) :
    WellFormed (String.utf8EncodeChar c) c.toNat := by
  have hbounds : c.toNat < 0xD800 ∨ (0xDFFF < c.toNat ∧ c.toNat < 0x110000) := c.valid
  have hv : c.val.toNat = c.toNat := rfl
  simp only [String.utf8EncodeChar, hv]
  generalize c.toNat = v at hbounds
  have hbyte {n : Nat} (hn : n < 256) : (UInt8.ofNat n).toNat = n := UInt8.toNat_ofNat_of_lt hn
  split
  next hle =>
    have ha := hbyte (n := v) (by omega)
    exact .of_eq (.one (by omega)) ha
  next hgt =>
    have hlast := hbyte (n := v % 64 + 128) (by omega)
    split
    next hle =>
      have ha := hbyte (n := v / 64 % 32 + 192) (by omega)
      exact .of_eq (.two (by omega) (by simp only [IsContinuation]; omega)) (by omega)
    next hgt =>
      have hbefore := hbyte (n := v / 64 % 64 + 128) (by omega)
      split
      next hle =>
        have ha := hbyte (n := v / 4096 % 16 + 224) (by omega)
        exact .of_eq (.three (by omega) (by simp only [IsContinuation]; omega) (by omega)
          (by omega) (by simp only [IsContinuation]; omega)) (by omega)
      next hgt =>
        have ha := hbyte (n := v / 262144 % 8 + 240) (by omega)
        have hb := hbyte (n := v / 4096 % 64 + 128) (by omega)
        exact .of_eq (.four (by omega) (by simp only [IsContinuation]; omega) (by omega)
          (by omega) (by simp only [IsContinuation]; omega) (by simp only [IsContinuation]; omega))
          (by omega)

-- ---------------------------------------------------------------------------
-- Reading sequences
-- ---------------------------------------------------------------------------

/-- A sequence that starts with the byte `first` is read up to `tail`, and has the
    value `code`. -/
def IsSequence (first : UInt8) (bytes : List UInt8) (code : Nat) (tail : List UInt8) : Prop :=
  ∃ length low high, sequenceShape first.toNat = some (length, low, high) ∧
    readContinuation (length - 1) low high (leadBits length first.toNat) 1 bytes =
      .complete code tail

theorem IsSequence.wellFormed {first : UInt8} {bytes tail : List UInt8} {code : Nat}
    (h : IsSequence first bytes code tail) :
    ∃ more, bytes = more ++ tail ∧ WellFormed (first :: more) code := by
  obtain ⟨length, low, high, hshape, hread⟩ := h
  rcases sequenceShape_cases hshape with ⟨rfl, hfirst⟩ | ⟨rfl, hge, hlt, hlow, hhigh⟩ |
    ⟨rfl, hge, hlt, hlow, hhigh, hshort, hscalar⟩ | ⟨rfl, hge, hle, hlow, hhigh, hshort, hscalar⟩
  · obtain ⟨rfl, rfl⟩ := readContinuation_zero_eq_complete_iff.mp hread
    exact ⟨[], rfl, .one hfirst⟩
  · obtain ⟨a, _, rfl, ha, ha', hread⟩ := readContinuation_succ_eq_complete_iff.mp hread
    obtain ⟨rfl, rfl⟩ := readContinuation_zero_eq_complete_iff.mp hread
    exact ⟨[a], rfl, .two ⟨hge, hlt⟩ ⟨by omega, by omega⟩⟩
  · obtain ⟨a, _, rfl, ha, ha', hread⟩ := readContinuation_succ_eq_complete_iff.mp hread
    obtain ⟨b, _, rfl, hb, hb', hread⟩ := readContinuation_succ_eq_complete_iff.mp hread
    obtain ⟨rfl, rfl⟩ := readContinuation_zero_eq_complete_iff.mp hread
    refine ⟨[a, b], rfl, .three ⟨hge, hlt⟩ ⟨?_, ?_⟩ ?_ ?_ ⟨hb, hb'⟩⟩
    all_goals omega
  · obtain ⟨a, _, rfl, ha, ha', hread⟩ := readContinuation_succ_eq_complete_iff.mp hread
    obtain ⟨b, _, rfl, hb, hb', hread⟩ := readContinuation_succ_eq_complete_iff.mp hread
    obtain ⟨d, _, rfl, hd, hd', hread⟩ := readContinuation_succ_eq_complete_iff.mp hread
    obtain ⟨rfl, rfl⟩ := readContinuation_zero_eq_complete_iff.mp hread
    refine ⟨[a, b, d], rfl, .four ⟨hge, hle⟩ ⟨?_, ?_⟩ ?_ ?_ ⟨hb, hb'⟩ ⟨hd, hd'⟩⟩
    all_goals omega

theorem WellFormed.isSequence {bytes : List UInt8} {code : Nat} (h : WellFormed bytes code)
    (tail : List UInt8) :
    ∃ first more, bytes = first :: more ∧ IsSequence first (more ++ tail) code tail := by
  cases h with
  | @one a ha =>
    refine ⟨a, [], rfl, 1, _, _, sequenceShape_one ha, ?_⟩
    exact readContinuation_zero_eq_complete_iff.mpr ⟨rfl, rfl⟩
  | @two a b ha hb =>
    refine ⟨a, [b], rfl, 2, _, _, sequenceShape_two ha, ?_⟩
    refine readContinuation_succ_eq_complete_iff.mpr ⟨b, _, rfl, hb.1, hb.2, ?_⟩
    exact readContinuation_zero_eq_complete_iff.mpr ⟨rfl, rfl⟩
  | @three a b c ha hb hshort hscalar hc =>
    refine ⟨a, [b, c], rfl, 3, _, _, sequenceShape_three ha, ?_⟩
    simp only [IsContinuation] at hb
    refine readContinuation_succ_eq_complete_iff.mpr ⟨b, _, rfl, ?_, ?_, ?_⟩
    · split <;> omega
    · split <;> omega
    refine readContinuation_succ_eq_complete_iff.mpr ⟨c, _, rfl, hc.1, hc.2, ?_⟩
    exact readContinuation_zero_eq_complete_iff.mpr ⟨rfl, rfl⟩
  | @four a b c d ha hb hshort hscalar hc hd =>
    refine ⟨a, [b, c, d], rfl, 4, _, _, sequenceShape_four ha, ?_⟩
    simp only [IsContinuation] at hb
    refine readContinuation_succ_eq_complete_iff.mpr ⟨b, _, rfl, ?_, ?_, ?_⟩
    · split <;> omega
    · split <;> omega
    refine readContinuation_succ_eq_complete_iff.mpr ⟨c, _, rfl, hc.1, hc.2, ?_⟩
    refine readContinuation_succ_eq_complete_iff.mpr ⟨d, _, rfl, hd.1, hd.2, ?_⟩
    exact readContinuation_zero_eq_complete_iff.mpr ⟨rfl, rfl⟩

/-- The complete sequences are the encodings of characters. -/
theorem isSequence_iff {first : UInt8} {bytes tail : List UInt8} {code : Nat} :
    IsSequence first bytes code tail ↔
      ∃ c : Char, c.toNat = code ∧ first :: bytes = String.utf8EncodeChar c ++ tail := by
  constructor
  · intro h
    obtain ⟨more, rfl, hformed⟩ := h.wellFormed
    obtain ⟨c, rfl⟩ := hformed.exists_char
    exact ⟨c, rfl, by rw [← hformed.eq_utf8EncodeChar, List.cons_append]⟩
  · rintro ⟨c, rfl, hbytes⟩
    obtain ⟨first', more, hmore, hsequence⟩ := (wellFormed_utf8EncodeChar c).isSequence tail
    rw [hmore, List.cons_append, List.cons.injEq] at hbytes
    rw [hbytes.1, hbytes.2]
    exact hsequence

-- ---------------------------------------------------------------------------
-- Decoding
-- ---------------------------------------------------------------------------

/-- After a complete sequence decoding goes on with what follows it. -/
theorem IsSequence.decodeUtf8From_cons {first : UInt8} {bytes tail : List UInt8} {code : Nat}
    (h : IsSequence first bytes code tail) (fuel position : Nat) :
    ∃ length, decodeUtf8From (fuel + 1) position (first :: bytes) =
      (decodeUtf8From fuel (position + length) tail).map (Char.ofNat code :: ·) := by
  obtain ⟨length, low, high, hshape, hread⟩ := h
  refine ⟨length, ?_⟩
  rw [decodeUtf8From, hshape]
  simp only [hread]

theorem exists_isSequence_of_decodeUtf8From {fuel position : Nat} {first : UInt8}
    {bytes : List UInt8} {cs : List Char}
    (h : decodeUtf8From (fuel + 1) position (first :: bytes) = .ok cs) :
    ∃ code tail, IsSequence first bytes code tail := by
  rw [decodeUtf8From] at h
  split at h
  next => cases h
  next length low high hshape =>
    split at h
    next => cases h
    next => cases h
    next code tail hread => exact ⟨code, tail, length, low, high, hshape, hread⟩

theorem utf8EncodeChar_ne_nil (c : Char) : String.utf8EncodeChar c ≠ [] := by
  intro h
  have hformed := wellFormed_utf8EncodeChar c
  rw [h] at hformed
  cases hformed

theorem decodeUtf8From_nil_eq_ok_iff {fuel position : Nat} {cs : List Char} :
    decodeUtf8From fuel position [] = .ok cs ↔ [] = cs.flatMap String.utf8EncodeChar := by
  have hnil : decodeUtf8From fuel position [] = .ok [] := by cases fuel <;> rfl
  rw [hnil]
  cases cs with
  | nil => exact ⟨fun _ => rfl, fun _ => rfl⟩
  | cons c more =>
    refine ⟨nofun, fun h => ?_⟩
    rw [List.flatMap_cons] at h
    exact absurd (List.append_eq_nil_iff.mp h.symm).1 (utf8EncodeChar_ne_nil c)

/-- With enough fuel the decoder reads the characters whose encodings make up the bytes. -/
theorem decodeUtf8From_eq_ok_iff {fuel position : Nat} {bytes : List UInt8} {cs : List Char}
    (hfuel : bytes.length ≤ fuel) :
    decodeUtf8From fuel position bytes = .ok cs ↔ bytes = cs.flatMap String.utf8EncodeChar := by
  induction fuel generalizing position bytes cs with
  | zero =>
    obtain rfl := List.length_eq_zero_iff.mp (Nat.le_zero.mp hfuel)
    exact decodeUtf8From_nil_eq_ok_iff
  | succ fuel ih =>
    cases bytes with
    | nil => exact decodeUtf8From_nil_eq_ok_iff
    | cons first rest =>
      have htail {code : Nat} {tail : List UInt8} (h : IsSequence first rest code tail) :
          tail.length ≤ fuel := by
        obtain ⟨more, rfl, _⟩ := h.wellFormed
        rw [List.length_cons, List.length_append] at hfuel
        omega
      constructor
      · intro h
        obtain ⟨code, tail, hsequence⟩ := exists_isSequence_of_decodeUtf8From h
        obtain ⟨length, heq⟩ := hsequence.decodeUtf8From_cons fuel position
        obtain ⟨c, rfl, hbytes⟩ := isSequence_iff.mp hsequence
        rw [heq] at h
        obtain ⟨more, hmore, rfl⟩ := Except.map_eq_ok_iff.mp h
        rw [Char.ofNat_toNat, List.flatMap_cons, hbytes, (ih (htail hsequence)).mp hmore]
      · intro h
        cases cs with
        | nil => cases h
        | cons c more =>
          rw [List.flatMap_cons] at h
          have hsequence := isSequence_iff.mpr ⟨c, rfl, h⟩
          obtain ⟨length, heq⟩ := hsequence.decodeUtf8From_cons fuel position
          rw [heq, (ih (htail hsequence)).mpr rfl, Char.ofNat_toNat]
          rfl

/-- A file is decoded to a text if and only if its bytes are the text in UTF-8. -/
theorem decode_utf8_eq_ok_iff {bytes : List UInt8} {text : String} :
    Encoding.utf8.decode bytes = .ok text ↔
      bytes = text.toList.flatMap String.utf8EncodeChar := by
  rw [Encoding.decode, Except.map_eq_ok_iff]
  constructor
  · rintro ⟨cs, hcs, rfl⟩
    rw [String.toList_ofList]
    exact (decodeUtf8From_eq_ok_iff (Nat.le_refl _)).mp hcs
  · intro h
    exact ⟨text.toList, (decodeUtf8From_eq_ok_iff (Nat.le_refl _)).mpr h, String.ofList_toList⟩

/-- A file of ASCII characters, a byte for each, is decoded to them. -/
theorem decode_ascii {cs : List Char} (h : ∀ c ∈ cs, c.toNat < 128) :
    Encoding.utf8.decode (cs.map fun c => UInt8.ofNat c.toNat) = .ok (String.ofList cs) := by
  rw [decode_utf8_eq_ok_iff, String.toList_ofList]
  induction cs with
  | nil => rfl
  | cons c rest ih =>
    obtain ⟨hc, hrest⟩ := List.forall_mem_cons.mp h
    have hle : c.val.toNat ≤ 127 := Nat.le_of_lt_succ hc
    rw [List.map_cons, List.flatMap_cons, ← ih hrest, String.utf8EncodeChar]
    simp only [if_pos hle]
    rfl

end AsmHighlight.Text
