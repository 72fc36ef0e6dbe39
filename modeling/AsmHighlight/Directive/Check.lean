-- SUMMARY: Checking the operands of data directives.
import AsmHighlight.Text.Line
import AsmHighlight.Token.Basic

/-!
# Directive operands

A directive takes exactly one operand on its line: a string, or an integer that
fits its width. Comments are no operands, and commas only separate them. An
operand that is itself invalid is not reported again. Checking adds the kind
and width of the operand to the directive's attributes and leaves every other
token as it is.
-/

namespace AsmHighlight.Directive

/-- The operand that the directive expects, in words. -/
def expected (d : Directive) : String :=
  match d.operand with
  | .text => "a string literal"
  | .unsigned bits => s!"a {bits}-bit unsigned integer literal"

def expectedCategory (d : Directive) : Token.Category :=
  match d.operand with
  | .text => .stringLiteral
  | .unsigned _ => .integerLiteral

def describe (t : Token) : String :=
  match t.category with
  | .stringLiteral => "a string literal"
  | .integerLiteral => "an integer literal"
  | .register => "a register"
  | .mnemonic => "a mnemonic"
  | .identifier => "an identifier"
  | .labelReference => "a label reference"
  | .directiveKeyword => "a directive"
  | _ => s!"'{t.text}'"

def isOperand (t : Token) : Bool :=
  t.category != .comment && t.category != .punctuation

/-- The operands on a line, among the tokens after a directive. -/
def operands (line : Int) (after : List Token) : List Token :=
  (after.takeWhile fun t => t.line == line).filter isOperand

/-- The diagnostics on the kind and value of the first operand. -/
def checkFirst (d : Directive) (keyword operand : Token) : Except Token.Fault (List Diagnostic) :=
  if operand.category = .invalid then .ok []
  else if operand.category ≠ d.expectedCategory then
    .ok [⟨.operandKind, operand.range,
      s!"'{keyword.text}' expects {d.expected}, got {describe operand}", .error, none⟩]
  else
    match d.operand with
    | .text => .ok []
    | .unsigned bits => do
      let value ← Token.require "value" operand.integerValue?
      if d.fits value then return []
      match Decimal.write value with
      | .error cause => .error (.overlong cause)
      | .ok shown =>
        return [⟨.operandRange, operand.range,
          s!"value {shown} does not fit in {bits} bits for '{keyword.text}'", .error,
          some s!"valid range is 0 to {Nat.pow 2 bits - 1}"⟩]

/-- The diagnostic on operands after the first. -/
def checkSurplus (keyword : Token) : (surplus : List Token) → List Diagnostic
  | [] => []
  | first :: more =>
    let count := more.length + 1
    let last := more.getLastD first
    [⟨.operandSurplus, ⟨first.range.start, last.range.stop⟩,
      s!"'{keyword.text}' takes exactly one operand, found {count} extra operand{Text.plural count}",
      .error, some s!"use one '{keyword.text}' line per value"⟩]

/-- The diagnostics on the operands of a directive. -/
def checkOperands (d : Directive) (keyword : Token) :
    List Token → Except Token.Fault (List Diagnostic)
  | [] =>
    .ok [⟨.operandMissing, keyword.range, s!"'{keyword.text}' expects {d.expected}", .error, none⟩]
  | operand :: surplus =>
    (checkFirst d keyword operand).map fun found => found ++ checkSurplus keyword surplus

/-- The directive's token with the kind and width of its operand. -/
def annotate (d : Directive) (keyword : Token) : Token :=
  { keyword with
    attributes := [.directive d.name, .literalKind d.literalKind, .bitWidth d.bitWidth] }

/-- The tokens of a document with its directives annotated and checked. -/
def check (g : Grammar) : List Token → Except Token.Fault (List Token × List Diagnostic)
  | [] => .ok ([], [])
  | t :: rest =>
    if t.category = .directiveKeyword then do
      let name ← Token.require "directive" t.directiveName?
      match g.directive? name with
      | none => .error (.unknownDirective name)
      | some d =>
        let found ← checkOperands d t (operands t.line rest)
        let (tokens, more) ← check g rest
        return (annotate d t :: tokens, found ++ more)
    else do
      let (tokens, more) ← check g rest
      return (t :: tokens, more)

end AsmHighlight.Directive
