-- SUMMARY: Surrogates: the code points that stand for one character in pairs.

/-!
# Surrogates

A character above U+FFFF is written in sixteen-bit units as a high surrogate
and a low one. No surrogate is a character by itself.
-/

namespace AsmHighlight.Text

/-- The value is the first half of a surrogate pair. -/
def isHighSurrogate (n : Nat) : Bool :=
  0xD800 ≤ n && n < 0xDC00

/-- The value is the second half of a surrogate pair. -/
def isLowSurrogate (n : Nat) : Bool :=
  0xDC00 ≤ n && n < 0xE000

def isSurrogate (n : Nat) : Bool :=
  isHighSurrogate n || isLowSurrogate n

def joinSurrogates (high low : Nat) : Nat :=
  0x10000 + (high - 0xD800) * 0x400 + (low - 0xDC00)

/-- The sixteen-bit units of a code point: itself, or a surrogate pair. -/
def sixteenBitUnits (n : Nat) : List Nat :=
  if n < 0x10000 then [n]
  else [0xD800 + (n - 0x10000) / 0x400, 0xDC00 + (n - 0x10000) % 0x400]

-- ---------------------------------------------------------------------------
-- Laws
-- ---------------------------------------------------------------------------

/-- A pair is what its code point is written as. -/
theorem sixteenBitUnits_joinSurrogates {high low : Nat} (hh : isHighSurrogate high = true)
    (hl : isLowSurrogate low = true) :
    sixteenBitUnits (joinSurrogates high low) = [high, low] := by
  unfold isHighSurrogate at hh
  unfold isLowSurrogate at hl
  unfold sixteenBitUnits joinSurrogates
  rw [Bool.and_eq_true, decide_eq_true_iff, decide_eq_true_iff] at hh hl
  rw [if_neg (by omega)]
  rw [show 0xD800 + (0x10000 + (high - 0xD800) * 0x400 + (low - 0xDC00) - 0x10000) / 0x400 = high
    by omega]
  rw [show 0xDC00 + (0x10000 + (high - 0xD800) * 0x400 + (low - 0xDC00) - 0x10000) % 0x400 = low
    by omega]

end AsmHighlight.Text
