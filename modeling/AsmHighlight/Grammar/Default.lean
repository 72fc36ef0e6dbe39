-- SUMMARY: The built-in vocabulary.
import AsmHighlight.Grammar.Basic

/-!
# The built-in vocabulary

The instructions, registers and data directives of the machine that the
language is made for: a 32-bit register machine whose instructions are four
bytes wide. The last five mnemonics are helpers that expand to instructions.
-/

namespace AsmHighlight.Grammar

def builtinMnemonics : List Mnemonic :=
  [⟨"cpy", "reg, reg|lit", "copy a value into a register"⟩,
   ⟨"ex", "reg, reg", "exchange two registers"⟩,
   ⟨"add", "reg, reg|lit", "add to a register"⟩,
   ⟨"sub", "reg, reg|lit", "subtract from a register"⟩,
   ⟨"mul", "reg, reg|lit", "multiply a register"⟩,
   ⟨"div", "reg, reg|lit, mode", "divide a register"⟩,
   ⟨"mod", "reg, reg|lit, mode", "remainder of a division"⟩,
   ⟨"and", "reg, reg|lit", "bitwise AND"⟩,
   ⟨"bor", "reg, reg|lit", "bitwise OR"⟩,
   ⟨"xor", "reg, reg|lit", "bitwise exclusive OR"⟩,
   ⟨"shl", "reg, reg|lit", "shift left"⟩,
   ⟨"shr", "reg, reg|lit", "shift right"⟩,
   ⟨"cmp", "reg, reg|lit", "compare two values and set flags"⟩,
   ⟨"jpr", "reg|lit", "relative jump"⟩,
   ⟨"lsm", "reg|lit", "leave supervisor mode"⟩,
   ⟨"itr", "reg|lit", "raise an interrupt"⟩,
   ⟨"if", "reg|lit", "run next instruction if a flag is set"⟩,
   ⟨"ifor", "reg|lit, reg|lit", "run next instruction if either flag is set"⟩,
   ⟨"ifand", "reg|lit, reg|lit", "run next instruction if both flags are set"⟩,
   ⟨"ifn", "reg|lit", "run next instruction if a flag is clear"⟩,
   ⟨"if2", "reg|lit, reg|lit, cond", "two-flag conditional"⟩,
   ⟨"lsa", "reg, reg|lit, reg|lit", "load from a stack-relative address"⟩,
   ⟨"lea", "reg|lit, reg|lit, reg|lit", "load from an effective address into avr"⟩,
   ⟨"wsa", "reg|lit, reg|lit, reg|lit", "write to a stack-relative address"⟩,
   ⟨"wea", "reg|lit, reg|lit, reg|lit", "write avr to an effective address"⟩,
   ⟨"srm", "reg|lit, reg|lit, reg", "swap a register with memory"⟩,
   ⟨"push", "reg|lit", "push onto the stack"⟩,
   ⟨"pop", "reg", "pop from the stack"⟩,
   ⟨"call", "reg|lit", "call a subroutine"⟩,
   ⟨"hwd", "reg, reg|lit, reg|lit", "query hardware device information"⟩,
   ⟨"cycles", "reg", "read the cycle counter"⟩,
   ⟨"halt", "", "halt the processor"⟩,
   ⟨"reset", "reg|lit", "reset the motherboard"⟩,
   ⟨"jp", "label", "jump to a label"⟩,
   ⟨"zro", "reg", "set a register to zero"⟩,
   ⟨"inc", "reg", "increment a register"⟩,
   ⟨"dec", "reg", "decrement a register"⟩,
   ⟨"not", "reg", "bitwise NOT"⟩]

/-- The numbered registers of a group. -/
def registerGroup (stem : String) (count : Nat) : List String :=
  (List.range count).map fun i => stem ++ toString i

/-- The built-in registers: arithmetic, call, accumulator and scratch registers, and
    those with a purpose of their own. -/
def builtinRegisters : List String :=
  registerGroup "a" 8 ++ registerGroup "c" 2 ++ registerGroup "ac" 3 ++ registerGroup "rr" 8 ++
    ["avr", "pc", "af", "ssp", "usp", "et", "era", "ew", "mtt", "pda", "smt"]

def builtinDirectives : List Directive :=
  [⟨"str", .text, "embed a string"⟩,
   ⟨"d8", .unsigned 8, "embed an 8-bit value"⟩,
   ⟨"d16", .unsigned 16, "embed a 16-bit value"⟩,
   ⟨"d32", .unsigned 32, "embed a 32-bit value"⟩]

def builtin : Grammar where
  mnemonics := builtinMnemonics.map fun m => (m.name, m)
  registers := builtinRegisters
  directives := builtinDirectives
  jumps := ["jp"]

end AsmHighlight.Grammar
