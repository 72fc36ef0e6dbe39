-- SUMMARY: Resolving jump operands to declared labels.
import AsmHighlight.Label.Similar
import AsmHighlight.Label.Table
import AsmHighlight.Token.Classify

/-!
# Label references

An identifier directly after a jump on the same line is a label reference. It
is looked up in the table of the whole document, so a jump may go forwards. A
reference to a label that is not declared is reported, with similar names as a
hint.
-/

namespace AsmHighlight.Label

/-- The token is the operand of a jump; `previous` is the token before it. -/
def isJumpOperand (g : Grammar) (caseSensitive : Bool) (previous : Option Token) (t : Token) :
    Bool :=
  t.category == .identifier &&
    previous.any fun p => p.line == t.line && p.isJump g caseSensitive

/-- The hint for a reference to an unknown label. -/
def suggestion? (name : String) (table : Table) : Option String :=
  match similar name table.names with
  | [] => none
  | close =>
    let listed := String.intercalate ", " (close.map fun s => "'" ++ s ++ "'")
    some s!"did you mean {listed}?"

/-- The diagnostic for a reference to an unknown label. -/
def unresolved (severity : Severity) (table : Table) (t : Token) : Diagnostic where
  code := .unresolvedReference
  range := t.range
  message := s!"reference to undeclared label '{t.text}'"
  severity := severity
  hint := suggestion? t.text table

/-- The token as a label reference, looked up in the table. -/
def reference (table : Table) (t : Token) : Token :=
  match table.lookup t.text with
  | some label =>
    { t with
      category := .labelReference
      attributes := [.name t.text, .resolved true, .declaration label.range] }
  | none =>
    { t with
      category := .labelReference
      attributes := [.name t.text, .resolved false] }

/-- The tokens with references resolved, and a diagnostic for each reference to an
    unknown label; `previous` is the token before them. -/
def resolveFrom (g : Grammar) (caseSensitive : Bool) (severity : Severity) (table : Table)
    (previous : Option Token) : List Token → List Token × List Diagnostic
  | [] => ([], [])
  | t :: rest =>
    let (tokens, found) := resolveFrom g caseSensitive severity table (some t) rest
    if isJumpOperand g caseSensitive previous t then
      let missing := (table.lookup t.text).isNone
      (reference table t :: tokens,
        if missing then unresolved severity table t :: found else found)
    else (t :: tokens, found)

def resolve (g : Grammar) (caseSensitive : Bool) (severity : Severity) (table : Table)
    (tokens : List Token) : List Token × List Diagnostic :=
  resolveFrom g caseSensitive severity table none tokens

end AsmHighlight.Label
