-- SUMMARY: The vocabulary of the language: mnemonics, registers, jumps and directives.
import AsmHighlight.Keyed
import AsmHighlight.Text.Lowercase

/-!
# Grammars

A grammar is the vocabulary that words are looked up in. Mnemonics and
registers are kept in lower case, and a word is looked up as written or in
lower case, as the caller asks. Directives always match as written.
-/

namespace AsmHighlight

/-- An instruction: its name, the shape of its operands, and what it does. -/
structure Mnemonic where
  name : String
  operands : String
  description : String
  deriving DecidableEq, Repr

/-- The kind of literal that a directive embeds. -/
inductive LiteralKind where
  | string
  | integer
  deriving DecidableEq, Repr

def LiteralKind.name : LiteralKind → String
  | .string => "string"
  | .integer => "integer"

/-- What a directive takes: a text, or an unsigned integer of some bits. -/
inductive Directive.Operand where
  | text
  | unsigned (bits : Nat)
  deriving DecidableEq, Repr

/-- A data directive, named without its number sign. -/
structure Directive where
  name : String
  operand : Directive.Operand
  description : String
  deriving DecidableEq, Repr

namespace Directive

/-- The kind of literal that the directive embeds. -/
def literalKind (d : Directive) : LiteralKind :=
  match d.operand with
  | .text => .string
  | .unsigned _ => .integer

/-- The width of an integer operand. -/
def bitWidth (d : Directive) : Option Nat :=
  match d.operand with
  | .text => none
  | .unsigned bits => some bits

/-- The largest integer operand. -/
def maxValue (d : Directive) : Option Nat :=
  d.bitWidth.map fun bits => Nat.pow 2 bits - 1

/-- The integer fits the width of the directive; nothing fits a text. -/
def fits (d : Directive) (value : Int) : Bool :=
  match d.operand with
  | .text => false
  | .unsigned bits => 0 ≤ value && value < (Nat.pow 2 bits : Nat)

end Directive

/-- The vocabulary of the language. Mnemonics are found by their key. -/
structure Grammar where
  mnemonics : List (String × Mnemonic)
  registers : List String
  directives : List Directive
  jumps : List String
  deriving DecidableEq, Repr

namespace Grammar

/-- The form in which a word is looked up. -/
def lookupForm (caseSensitive : Bool) (word : String) : String :=
  if caseSensitive then word else Text.lowercase word

def isMnemonic (g : Grammar) (caseSensitive : Bool) (word : String) : Bool :=
  (Keyed.get? g.mnemonics (lookupForm caseSensitive word)).isSome

def isRegister (g : Grammar) (caseSensitive : Bool) (word : String) : Bool :=
  lookupForm caseSensitive word ∈ g.registers

/-- The word is a mnemonic whose operand is a label. -/
def isJump (g : Grammar) (caseSensitive : Bool) (word : String) : Bool :=
  lookupForm caseSensitive word ∈ g.jumps

/-- The directive of a name without its number sign. -/
def directive? (g : Grammar) (name : String) : Option Directive :=
  g.directives.find? fun d => d.name = name

/-- The entry of a mnemonic in any case. -/
def mnemonic? (g : Grammar) (word : String) : Option Mnemonic :=
  Keyed.get? g.mnemonics (Text.lowercase word)

/-- The keys of the mnemonic table, in order. -/
def mnemonicKeys (g : Grammar) : List String :=
  Keyed.names g.mnemonics

/-- The grammar with more words. A mnemonic with a known key replaces the entry and
    keeps its place. -/
def extend (g : Grammar) (mnemonics : List Mnemonic) (registers jumps : List String) : Grammar where
  mnemonics :=
    mnemonics.foldl (fun table m => Keyed.put table (Text.lowercase m.name) m) g.mnemonics
  registers := (registers.map Text.lowercase).foldl Keyed.addName g.registers
  directives := g.directives
  jumps := (jumps.map Text.lowercase).foldl Keyed.addName g.jumps

end Grammar

end AsmHighlight
