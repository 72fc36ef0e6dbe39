-- SUMMARY: Highlighting a document from text to token stream.
import AsmHighlight.Directive.Check
import AsmHighlight.Grammar.Default
import AsmHighlight.Label.Resolve
import AsmHighlight.Lexeme.Scan
import AsmHighlight.Settings
import AsmHighlight.Stream.Basic

/-!
# The highlighter

A highlighter is a grammar and a policy. `Highlighter.highlight` scans a
document, classifies its lexemes, collects and resolves its labels, checks its
directives and puts the results into order. Documents are independent of each
other. The only way to fail is an integer that is too long for decimal
conversion.

`Highlighter.run` also gives the log, which in the case of a failure ends with
what was done before it.
-/

namespace AsmHighlight

/-- What documents are highlighted with. -/
structure Highlighter where
  grammar : Grammar := .builtin
  policy : Policy

namespace Highlighter

def lexemes (h : Highlighter) (source : String) : List Lexeme :=
  Lexeme.scan (some h.policy.sigil) source

/-- The tokens of a document, as the words alone show. -/
def classified (h : Highlighter) (source : String) : Except Decimal.Overlong (List Token) :=
  Token.classifyAll h.grammar h.policy.caseSensitive (h.lexemes source)

/-- The cap on diagnostics as an integer. -/
def cap (h : Highlighter) : Option Int :=
  h.policy.cap.map fun n => (n : Int)

/-- The results of the last three steps, put into order. -/
def finish (h : Highlighter) (version : Json) (before : List Log.Record) (labels : Label.Table)
    (tokens : List Token) (diagnostics : List Diagnostic) : Logged Token.Fault Stream :=
  let directives := tokens.countP fun t => t.category = .directiveKeyword
  let stream := Stream.emit h.cap version tokens diagnostics labels
  ⟨before ++ .validated directives :: Stream.emitLog h.cap stream, .ok stream⟩

/-- The steps after classification. -/
def analyse (h : Highlighter) (version : Json) (tokens : List Token) : Logged Token.Fault Stream :=
  match Label.collect tokens with
  | .error fault => ⟨[], .error fault⟩
  | .ok (labels, duplicates) =>
    let (resolved, unresolved) :=
      Label.resolve h.grammar h.policy.caseSensitive h.policy.severity labels tokens
    let log := [.collected labels.length, .resolved unresolved.length]
    match Directive.check h.grammar resolved with
    | .error fault => ⟨log, .error fault⟩
    | .ok (checked, found) =>
      h.finish version log labels checked
        (tokens.filterMap Token.malformed? ++ duplicates ++ unresolved ++ found)

/-- Highlights a document and keeps the log. -/
def run (h : Highlighter) (source : String) (version : Json) : Logged Token.Fault Stream :=
  match h.classified source with
  | .error cause => ⟨[], .error (.overlong cause)⟩
  | .ok tokens => h.analyse version tokens

def highlight (h : Highlighter) (source : String) (version : Json := .null) :
    Except Token.Fault Stream :=
  (h.run source version).result

end Highlighter

end AsmHighlight
