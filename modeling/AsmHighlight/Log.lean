-- SUMMARY: The log of what the highlighter does.
import AsmHighlight.Token.Basic

/-!
# Log records

Each step of the work leaves a record. Records are data; `Record.message` puts
them into words.
-/

namespace AsmHighlight

/-- How important a record is. -/
inductive Log.Level where
  | debug
  | info
  | warning
  deriving DecidableEq, Repr

def Log.Level.name : Log.Level → String
  | .debug => "DEBUG"
  | .info => "INFO"
  | .warning => "WARNING"

/-- Something that was done. -/
inductive Log.Record where
  | extendingGrammar (mnemonics registers jumps : Nat)
  | loadedGrammar (path : String)
  | highlighting (path : String)
  | collected (labels : Nat)
  | resolved (unresolved : Nat)
  | validated (directives : Nat)
  | overlapping (previous current : Token)
  | dropped (count limit : Int)
  | emitting (tokens diagnostics : Nat) (version : String)
  deriving DecidableEq, Repr

namespace Log.Record

def level : Record → Level
  | .overlapping _ _ => .warning
  | .dropped _ _ => .info
  | _ => .debug

def message : Record → String
  | .extendingGrammar mnemonics registers jumps =>
    s!"Extending grammar with {mnemonics} mnemonic(s), {registers} register(s), {jumps} jump(s)"
  | .loadedGrammar path => s!"Loaded grammar extension {path}"
  | .highlighting path => s!"Highlighting {path}"
  | .collected labels => s!"Collected {labels} label(s)"
  | .resolved unresolved => s!"Resolved label references ({unresolved} unresolved)"
  | .validated directives => s!"Validated {directives} directive(s)"
  | .overlapping previous current =>
    s!"Overlapping tokens {previous.display} and {current.display}"
  | .dropped count limit => s!"Dropped {count} diagnostic(s) beyond the limit of {limit}"
  | .emitting tokens diagnostics version =>
    s!"Emitting {tokens} token(s) and {diagnostics} diagnostic(s) for version {version}"

end Log.Record

/-- The log of an activity together with its result. When the activity fails, the
    log ends with what was done before. -/
structure Logged (ε α : Type) where
  log : List Log.Record
  result : Except ε α

end AsmHighlight
