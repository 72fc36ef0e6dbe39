-- SUMMARY: What a command prints and how it ends.
import AsmHighlight.Command.Options
import AsmHighlight.Failure
import AsmHighlight.Log
import AsmHighlight.Text.ControlSequence

/-!
# Outcomes

A command prints to its output and its error output, and ends with an exit
status: 0 for success, 1 when a check has found something, 2 for a mistake of
the caller, and 3 for a failure inside. A value that cannot be shown after the
work is done ends the command on the spot, with status 1.
-/

namespace AsmHighlight.Command

def success : Nat := 0

def found : Nat := 1

def misused : Nat := 2

def broken : Nat := 3

/-- How a command ends. -/
inductive Ending where
  /-- It ends with a status. -/
  | exit (status : Nat)
  /-- The command line was not understood; nothing was printed. -/
  | usage (error : UsageError)
  /-- A value could not be shown. -/
  | escaped (fault : Token.Fault)
  deriving DecidableEq, Repr

def Ending.status : Ending → Nat
  | .exit status => status
  | .usage _ => misused
  | .escaped _ => found

/-- What has been printed. -/
structure Transcript where
  output : String := ""
  errors : String := ""
  deriving DecidableEq, Repr

namespace Transcript

/-- Prints a line without control sequences. -/
def echo (t : Transcript) (line : String) : Transcript :=
  { t with output := t.output ++ Text.withoutSequences line ++ "\n" }

/-- Prints a line without control sequences to the error output. -/
def echoError (t : Transcript) (line : String) : Transcript :=
  { t with errors := t.errors ++ Text.withoutSequences line ++ "\n" }

/-- Prints text to the error output as it is. -/
def writeError (t : Transcript) (text : String) : Transcript :=
  { t with errors := t.errors ++ text }

/-- Prints a record of the log: all records with their level when `verbose`, and
    otherwise only warnings. -/
def record (verbose : Bool) (t : Transcript) (r : Log.Record) : Transcript :=
  if verbose then t.writeError s!"{r.level.name}: {r.message}\n"
  else if r.level = .warning then t.writeError s!"{r.message}\n"
  else t

def log (t : Transcript) (verbose : Bool) (records : List Log.Record) : Transcript :=
  records.foldl (record verbose) t

end Transcript

/-- A command's printing and ending. -/
structure Outcome where
  transcript : Transcript
  ending : Ending
  deriving DecidableEq, Repr

/-- A failure as the caller is told of it. -/
structure Complaint where
  text : String
  status : Nat
  deriving DecidableEq, Repr

/-- A mistake of the caller. -/
def Complaint.mistake (message : String) : Complaint :=
  ⟨s!"Error: {message}", misused⟩

/-- A failure that the caller could not have avoided. -/
def Complaint.internal (message : String) : Complaint :=
  ⟨s!"Internal error: {message}", broken⟩

/-- A file whose bytes are no text. -/
def Complaint.undecodable (message : String) : Complaint :=
  .mistake s!"cannot decode source file: {message}"

/-- The kinds of trouble that callers are told of in different ways. -/
inductive Trouble where
  /-- A grammar file or a setting is refused. -/
  | refused
  | notFound
  | notPermitted
  | isDirectory
  /-- The bytes of a file are no text. -/
  | notText
  | other
  deriving DecidableEq, Repr

/-- The kind of a system error, by its number in the system's list. -/
def Trouble.ofErrorNumber (number : Int) : Trouble :=
  if number = 2 then .notFound
  else if number = 1 ∨ number = 13 then .notPermitted
  else if number = 21 then .isDirectory
  else .other

def Trouble.ofFailure : Failure → Trouble
  | .grammar _ | .settings _ => .refused
  | .file fault => .ofErrorNumber fault.cause.number
  | .encoding _ => .notText
  | .nullPath | .nesting _ | .unrendered _ | .token _ => .other

/-- How the caller is told of trouble. -/
def Complaint.about (trouble : Trouble) (message : String) : Complaint :=
  match trouble with
  | .refused | .notFound | .notPermitted | .isDirectory => .mistake message
  | .notText => .undecodable message
  | .other => .internal message

def Complaint.ofFailure (failure : Failure) : Complaint :=
  .about (.ofFailure failure) failure.message

/-- Tells the caller of a failure and ends. A verbose command announces a trace of
    a failure inside. -/
def Transcript.complain (t : Transcript) (verbose : Bool) (c : Complaint) : Outcome :=
  let told := t.echoError c.text
  if verbose && c.status = broken then
    ⟨told.writeError "Traceback (most recent call last):", .exit c.status⟩
  else ⟨told, .exit c.status⟩

def Transcript.fail (t : Transcript) (verbose : Bool) (failure : Failure) : Outcome :=
  t.complain verbose (.ofFailure failure)

end AsmHighlight.Command
