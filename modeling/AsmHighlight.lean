import AsmHighlight.Command.Invocation
import AsmHighlight.Command.Options
import AsmHighlight.Command.Outcome
import AsmHighlight.Command.Run
import AsmHighlight.Command.Spelling
import AsmHighlight.Decimal.Binary64
import AsmHighlight.Decimal.Integer
import AsmHighlight.Decimal.Numeral
import AsmHighlight.Decimal.Shortest
import AsmHighlight.Diagnostic.Basic
import AsmHighlight.Diagnostic.Report
import AsmHighlight.Directive.Check
import AsmHighlight.Failure
import AsmHighlight.File.Path
import AsmHighlight.File.Tree
import AsmHighlight.Grammar.Basic
import AsmHighlight.Grammar.Default
import AsmHighlight.Grammar.Extension
import AsmHighlight.Grammar.Load
import AsmHighlight.Highlighter
import AsmHighlight.Highlighter.File
import AsmHighlight.Json.Basic
import AsmHighlight.Json.Printer
import AsmHighlight.Json.Reader
import AsmHighlight.Json.Render
import AsmHighlight.Keyed
import AsmHighlight.Label.Resolve
import AsmHighlight.Label.Similar
import AsmHighlight.Label.Table
import AsmHighlight.Lexeme.Basic
import AsmHighlight.Lexeme.Scan
import AsmHighlight.Literal.Integer
import AsmHighlight.Literal.Name
import AsmHighlight.Literal.Text
import AsmHighlight.Log
import AsmHighlight.Main
import AsmHighlight.Proofs.Except
import AsmHighlight.Proofs.Lexeme.Tiling
import AsmHighlight.Proofs.Literal.Integer
import AsmHighlight.Proofs.Text.Ascii
import AsmHighlight.Refusal
import AsmHighlight.Settings
import AsmHighlight.Source.Cursor
import AsmHighlight.Source.Position
import AsmHighlight.Stream.Basic
import AsmHighlight.Stream.Semantic
import AsmHighlight.Text.Character
import AsmHighlight.Text.CaseContext
import AsmHighlight.Text.Line
import AsmHighlight.Text.ControlSequence
import AsmHighlight.Text.Encoding
import AsmHighlight.Text.Loose
import AsmHighlight.Text.Lowercase
import AsmHighlight.Text.Order
import AsmHighlight.Text.Printable
import AsmHighlight.Text.Quoted
import AsmHighlight.Text.Surrogate
import AsmHighlight.Token.Basic
import AsmHighlight.Token.Classify
import AsmHighlight.Token.Listing
import AsmHighlight.Proofs.Grammar.Extended
import AsmHighlight.Proofs.Grammar.Chained
import AsmHighlight.Proofs.Token.Classified
import AsmHighlight.Proofs.Label.Resolved
import AsmHighlight.Proofs.Directive.Checked
import AsmHighlight.Proofs.Highlighter.Steps
import AsmHighlight.Proofs.Highlighter.Usable
import AsmHighlight.Proofs.Text.Encoding
import AsmHighlight.Proofs.Json.Rendered
import AsmHighlight.Proofs.Json.Reading
import AsmHighlight.Proofs.Json.Returned
import AsmHighlight.Proofs.Highlighter.Failure
import AsmHighlight.Proofs.Highlighter.WellFormed
import AsmHighlight.Proofs.Source.Reading
import AsmHighlight.Proofs.Source.Cursor
import AsmHighlight.Proofs.Diagnostic.Excerpt
import AsmHighlight.Proofs.Directive.Remarks
import AsmHighlight.Proofs.Diagnostic.Sorted
import AsmHighlight.Proofs.Enumeration
import AsmHighlight.Proofs.Token.Pass
import AsmHighlight.Proofs.Label.Collected
import AsmHighlight.Proofs.Highlighter.Places
import AsmHighlight.Proofs.Stream.Semantic
import AsmHighlight.Proofs.Highlighter.References
import AsmHighlight.Proofs.Highlighter.Declarations
import AsmHighlight.Proofs.Highlighter.Excerpts
import AsmHighlight.Proofs.Directive.Deserved
import AsmHighlight.Proofs.Highlighter.Directives
import AsmHighlight.Proofs.Relocation
import AsmHighlight.Proofs.Token.Relocated
import AsmHighlight.Proofs.Label.Relocated
import AsmHighlight.Proofs.Directive.Relocated
import AsmHighlight.Proofs.Diagnostic.Relocated
import AsmHighlight.Proofs.Highlighter.Relocated
import AsmHighlight.Proofs.Lexeme.Rescan
import AsmHighlight.Proofs.Highlighter.Joined
import AsmHighlight.Proofs.Highlighter.LineEnds
import AsmHighlight.Proofs.Lexeme.Respaced
import AsmHighlight.Proofs.Highlighter.Respaced
import AsmHighlight.Proofs.Highlighter.Decoded
import AsmHighlight.Proofs.Stream.Sorted
import AsmHighlight.Proofs.Highlighter.Kept
import AsmHighlight.Proofs.Highlighter.Offsets
import AsmHighlight.Proofs.Diagnostic.Key
import AsmHighlight.Proofs.Highlighter.Ordered
import AsmHighlight.Proofs.Lexeme.Recased
import AsmHighlight.Proofs.Token.Recased
import AsmHighlight.Proofs.Highlighter.Recased
import AsmHighlight.Proofs.Text.Recased
import AsmHighlight.Proofs.Grammar.Listed
import AsmHighlight.Proofs.Highlighter.Conservative
import AsmHighlight.Proofs.Stream.Written
import AsmHighlight.Proofs.Token.Presented
import AsmHighlight.Proofs.Highlighter.Sized
import AsmHighlight.Proofs.Command.Session
import AsmHighlight.Proofs.Command.Tokens
import AsmHighlight.Proofs.Command.Check
import AsmHighlight.Proofs.Command.Labels
import AsmHighlight.Proofs.Lexeme.Forms
import AsmHighlight.Proofs.Literal.Text
import AsmHighlight.Proofs.Text.Edits
import AsmHighlight.Proofs.Label.Distance
import AsmHighlight.Proofs.Grammar.Repeated
import AsmHighlight.Proofs.Grammar.Format
import AsmHighlight.Proofs.Grammar.Accepted
import AsmHighlight.Proofs.Grammar.Loaded
