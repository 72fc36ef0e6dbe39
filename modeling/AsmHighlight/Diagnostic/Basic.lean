-- SUMMARY: Diagnostics, their order of presentation, and counts.
import AsmHighlight.Source.Position
import AsmHighlight.Text.Order

/-!
# Diagnostics

A diagnostic is a remark on a span of the document. Diagnostics never stop the
work on a document. They are presented in the order of their sort key: start,
end, code and message.
-/

namespace AsmHighlight

/-- How serious a diagnostic is. -/
inductive Severity where
  | error
  | warning
  deriving DecidableEq, Repr

namespace Severity

def name : Severity → String
  | .error => "error"
  | .warning => "warning"

def ofName? (s : String) : Option Severity :=
  if s = "error" then some .error else if s = "warning" then some .warning else none

theorem ofName?_name (s : Severity) : ofName? s.name = some s := by
  cases s <;> decide

end Severity

/-- What a diagnostic is about. -/
inductive Diagnostic.Code where
  | malformedLexeme
  | duplicateLabel
  | unresolvedReference
  | operandMissing
  | operandKind
  | operandRange
  | operandSurplus
  deriving DecidableEq, Repr

def Diagnostic.Code.name : Diagnostic.Code → String
  | .malformedLexeme => "MalformedLexeme"
  | .duplicateLabel => "DuplicateLabel"
  | .unresolvedReference => "UnresolvedLabelReference"
  | .operandMissing => "DirectiveOperandMissing"
  | .operandKind => "DirectiveOperandKindMismatch"
  | .operandRange => "DirectiveOperandOutOfRange"
  | .operandSurplus => "DirectiveOperandUnexpected"

def Diagnostic.Code.all : List Diagnostic.Code :=
  [.malformedLexeme, .duplicateLabel, .unresolvedReference, .operandMissing, .operandKind,
   .operandRange, .operandSurplus]

def Diagnostic.Code.ofName? (s : String) : Option Diagnostic.Code :=
  Diagnostic.Code.all.find? fun code => code.name = s

/-- A remark on a span of the document. -/
structure Diagnostic where
  code : Diagnostic.Code
  range : Range
  message : String
  severity : Severity := .error
  hint : Option String := none
  deriving DecidableEq, Repr

namespace Diagnostic

def isError (d : Diagnostic) : Bool :=
  d.severity == .error

/-- The hint, when there is one that says something. -/
def hint? (d : Diagnostic) : Option String :=
  d.hint.filter (· ≠ "")

/-- The diagnostic is presented no later than the other. -/
def sortLe (d e : Diagnostic) : Bool :=
  if d.range.start.offset ≠ e.range.start.offset then
    d.range.start.offset < e.range.start.offset
  else if d.range.stop.offset ≠ e.range.stop.offset then
    d.range.stop.offset < e.range.stop.offset
  else if d.code ≠ e.code then Text.textLe d.code.name e.code.name
  else Text.textLe d.message e.message

/-- The diagnostics in order of presentation. Equal keys keep their order. -/
def sort (ds : List Diagnostic) : List Diagnostic :=
  ds.mergeSort sortLe

def errorCount (ds : List Diagnostic) : Nat :=
  ds.countP isError

def warningCount (ds : List Diagnostic) : Nat :=
  ds.countP fun d => !d.isError

def toJson (d : Diagnostic) : Json :=
  let fields := [("code", .str d.code.name), ("severity", .str d.severity.name),
    ("message", .str d.message), ("range", d.range.toJson)]
  match d.hint? with
  | some hint => .object (fields ++ [("hint", .str hint)])
  | none => .object fields

end Diagnostic

end AsmHighlight
