-- SUMMARY: Settings of the highlighter, from defaults or the environment, and their validation.
import AsmHighlight.Decimal.Numeral
import AsmHighlight.Diagnostic.Basic
import AsmHighlight.Keyed
import AsmHighlight.Refusal
import AsmHighlight.Text.Lowercase

/-!
# Settings

Settings are what a caller asks for, checked or not. `Settings.validate` turns
them into a `Policy`, which only holds what the highlighter can work with: a
comment sigil that cannot be confused with anything else, a cap that is not
negative, and a severity.
-/

namespace AsmHighlight

/-- What a caller asks for. -/
structure Settings where
  /-- The character that starts a comment. -/
  commentSigil : String := ";"
  /-- Mnemonics and registers match as written only. -/
  caseSensitive : Bool := false
  /-- The number of diagnostics returned per document. -/
  maxDiagnostics : Option Int := none
  /-- The severity of a reference to an unknown label. -/
  unresolvedSeverity : String := "error"
  deriving DecidableEq, Repr

/-- The character has a meaning of its own and cannot start comments. -/
def isReservedSigil (c : Char) : Bool :=
  Text.isBlank c || c == '"' || c == ',' || c == '#' || c == '.'

/-- Settings that the highlighter can work with. -/
structure Policy where
  sigil : Char
  sigil_free : isReservedSigil sigil = false
  caseSensitive : Bool
  cap : Option Nat
  severity : Severity
  deriving DecidableEq, Repr

namespace Settings

/-- Why settings were refused. -/
inductive Fault where
  | sigilLength (sigil : String)
  | sigilReserved (sigil : String)
  | negativeCap (cap : Int)
  | unknownSeverity (name : String)
  | notBoolean (value : String)
  | notInteger (value : String)
  deriving DecidableEq, Repr

def sigilVariable : String := "LASM_COMMENT_SIGIL"

def caseVariable : String := "LASM_CASE_SENSITIVE"

def capVariable : String := "LASM_MAX_DIAGNOSTICS"

def severityVariable : String := "LASM_UNRESOLVED_SEVERITY"

/-- The variables that settings are read from. -/
def variableNames : List String :=
  [sigilVariable, caseVariable, capVariable, severityVariable]

def Fault.message : Fault → String
  | .sigilLength sigil =>
    s!"comment sigil must be a single character, got {Text.quoted sigil}"
  | .sigilReserved sigil => s!"comment sigil {Text.quoted sigil} is reserved"
  | .negativeCap cap => s!"max_diagnostics must be non-negative, got {cap}"
  | .unknownSeverity name => s!"unknown severity {Text.quoted name}"
  | .notBoolean value => s!"{caseVariable}: expected a boolean, got {Text.quoted value}"
  | .notInteger value => s!"{capVariable}: expected an integer, got {Text.quoted value}"

def Fault.hint? : Fault → Option String
  | .sigilReserved _ =>
    some "use a character that cannot appear in an operand, such as ';'"
  | .unknownSeverity _ => some "expected 'error' or 'warning'"
  | _ => none

def Fault.refusal (fault : Fault) : Refusal :=
  ⟨fault.message, none, fault.hint?⟩

-- ---------------------------------------------------------------------------
-- Validation
-- ---------------------------------------------------------------------------

/-- The cap, if it is not negative. -/
def validCap : Option Int → Except Fault (Option Nat)
  | none => .ok none
  | some cap => if cap < 0 then .error (.negativeCap cap) else .ok (some cap.toNat)

def validSeverity (name : String) : Except Fault Severity :=
  match Severity.ofName? name with
  | some severity => .ok severity
  | none => .error (.unknownSeverity name)

/-- Checks the settings one after the other; the first fault is reported. -/
def validate (s : Settings) : Except Fault Policy :=
  match s.commentSigil.toList with
  | [c] =>
    if h : isReservedSigil c = false then do
      let cap ← validCap s.maxDiagnostics
      let severity ← validSeverity s.unresolvedSeverity
      return ⟨c, h, s.caseSensitive, cap, severity⟩
    else .error (.sigilReserved s.commentSigil)
  | _ => .error (.sigilLength s.commentSigil)

-- ---------------------------------------------------------------------------
-- Environment
-- ---------------------------------------------------------------------------

/-- The value of a variable that is set and not empty. -/
def valueOf? (env : List (String × String)) (name : String) : Option String :=
  (Keyed.get? env name).filter (· ≠ "")

/-- A truth value in words. -/
def parseBool (value : String) : Except Fault Bool :=
  let word := Text.lowercase (Text.trim value)
  if word ∈ ["1", "true", "yes", "on"] then .ok true
  else if word ∈ ["0", "false", "no", "off"] then .ok false
  else .error (.notBoolean value)

def parseCap (value : String) : Except Fault Int :=
  match Decimal.parse? value with
  | some n => .ok n
  | none => .error (.notInteger value)

/-- An optional value, read if it is there. -/
def readIfSet (default : α) (read : String → Except Fault α) : Option String → Except Fault α
  | none => .ok default
  | some value => read value

/-- The settings that the environment asks for, before validation. -/
def read (env : List (String × String)) : Except Fault Settings := do
  let caseSensitive ← readIfSet false parseBool (valueOf? env caseVariable)
  let cap ← readIfSet none (fun value => (parseCap value).map some) (valueOf? env capVariable)
  return {
    commentSigil := (valueOf? env sigilVariable).getD ";"
    caseSensitive := caseSensitive
    maxDiagnostics := cap
    unresolvedSeverity :=
      ((valueOf? env severityVariable).map fun s => Text.lowercase (Text.trim s)).getD "error" }

/-- The settings that the environment asks for, which must be valid. -/
def ofEnvironment (env : List (String × String)) : Except Fault Settings := do
  let settings ← read env
  let _ ← settings.validate
  return settings

end Settings

end AsmHighlight
