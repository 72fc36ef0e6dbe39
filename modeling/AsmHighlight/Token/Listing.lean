-- SUMMARY: Tokens as lines of text.
import AsmHighlight.Text.Line
import AsmHighlight.Token.Basic

/-!
# Token listings

A token is listed on one line: its place, its category, its quoted text, and
what is known about it.
-/

namespace AsmHighlight.Token

/-- The operand that a directive takes, in words. A directive with a width must have
    a kind. -/
def operandNote (t : Token) : Except Fault String :=
  let kind := t.literalKind?.map LiteralKind.name
  match t.bitWidth? with
  | some (bits + 1) => (require "literal_kind" kind).map fun kind => s!"  ({bits + 1}-bit {kind})"
  | _ =>
    let kind := kind.getD "?"
    .ok s!"  ({kind})"

/-- What is known about a token, in words. -/
def note (t : Token) : Except Fault String :=
  match t.category with
  | .labelReference =>
    if t.isResolved then
      (require "declaration" t.declaration?).map fun r => s!"  -> {r.start.text}"
    else .ok "  -> (unresolved)"
  | .integerLiteral => do
    let value ← require "value" t.integerValue?
    match Decimal.write value with
    | .ok shown => return s!"  = {shown}"
    | .error cause => .error (.overlong cause)
  | .directiveKeyword => operandNote t
  | .invalid => (require "reason" t.reason?).map fun reason => s!"  ! {reason}"
  | _ => .ok ""

def listing (t : Token) : Except Fault String :=
  let start := t.range.start
  let line := Text.padLeft 5 (Decimal.text start.line)
  let column := Text.padRight 4 (Decimal.text start.column)
  let category := Text.padRight 17 t.category.name
  (note t).map fun note => s!"{line}:{column} {category} {Text.quoted t.text}{note}"

end AsmHighlight.Token
