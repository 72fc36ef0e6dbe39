-- SUMMARY: Texts in which a surrogate may stand alone.
import AsmHighlight.Text.Order
import AsmHighlight.Text.Quoted
import AsmHighlight.Text.Surrogate

/-!
# Loose texts

An escape can name half of a surrogate pair, so what a data file calls a string
need not be a text. A loose text is a text, or else a list of code points among
which a surrogate stands alone. Messages show such a surrogate by its code.
-/

namespace AsmHighlight.Text

/-- A text, or code points that are none. -/
inductive Loose where
  | whole (text : String)
  /-- Code points, with at least one surrogate. -/
  | broken (codes : List Nat)
  deriving DecidableEq, Repr

instance : Coe String Loose := ⟨.whole⟩

namespace Loose

/-- The loose text with the given code points. -/
def ofCodes (codes : List Nat) : Loose :=
  if codes.any isSurrogate then .broken codes
  else .whole (String.ofList (codes.map Char.ofNat))

def codes : Loose → List Nat
  | .whole text => textCodes text
  | .broken codes => codes

/-- One code point of a broken text: by its code if it is a surrogate, or else as
    `showAs` has it. -/
def showCode (showAs : Char → List Char) (n : Nat) : List Char :=
  if isSurrogate n then escapeByCode n else showAs (Char.ofNat n)

/-- The loose text between quotes. -/
def quoted : Loose → String
  | .whole text => Text.quoted text
  | .broken codes =>
    let quote := quoteFor (codes.map Char.ofNat)
    String.ofList (quote :: codes.flatMap (showCode (showChar quote)) ++ [quote])

/-- The loose text as part of a message. -/
def plain : Loose → String
  | .whole text => text
  | .broken codes => String.ofList (codes.flatMap (showCode fun c => [c]))

/-- Loose texts in the order of their code points. -/
def sorted (texts : List Loose) : List Loose :=
  texts.mergeSort fun a b => codesLe a.codes b.codes

-- ---------------------------------------------------------------------------
-- Laws
-- ---------------------------------------------------------------------------

/-- No code point is lost, surrogate or not. -/
theorem codes_ofCodes {codes : List Nat}
    (h : ∀ n ∈ codes, n.isValidChar ∨ isSurrogate n = true) : (ofCodes codes).codes = codes := by
  unfold ofCodes
  split
  · rfl
  · next none =>
    have back : ∀ n ∈ codes, (Char.ofNat n).toNat = n := by
      intro n hn
      rcases h n hn with valid | surrogate
      · rw [Char.ofNat, dif_pos valid]
        rfl
      · exact absurd (List.any_eq_true.mpr ⟨n, hn, surrogate⟩) none
    simp only [Loose.codes, textCodes, String.toList_ofList, List.map_map]
    exact (List.map_congr_left back).trans (List.map_id _)

end Loose

end AsmHighlight.Text
