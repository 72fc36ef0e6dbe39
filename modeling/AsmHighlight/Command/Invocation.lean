-- SUMMARY: What the command line asks for, and the checks made before anything runs.
import AsmHighlight.Command.Options
import AsmHighlight.File.Tree

/-!
# Invocations

The program takes options of its own, a command, and the options and arguments
of the command. Files that are named must exist and be no directories; this is
checked for all of them before the command runs. The words of a command line
hold no null character, so the paths in them can all be looked up. The version
and the help are shown whatever else is asked for.
-/

namespace AsmHighlight.Command

/-- How results are written. -/
inductive Format where
  | text
  | json
  deriving DecidableEq, Repr

/-- A command with its options and arguments. -/
inductive Action where
  | tokens (file : String) (format : Format) (noComments : Bool)
  | check (files : List String) (format : Format) (strict : Bool)
  | labels (file : String)
  | grammar
  deriving DecidableEq, Repr

/-- What the command line asks for. -/
inductive Invocation where
  | help
  | version
  | run (verbose : Bool) (grammar : Option String) (action : Action)
  deriving DecidableEq, Repr

/-- The option that shows the help. -/
def helpFlag : Flag := ⟨none, "--help", false⟩

def programFlags : List Flag :=
  [⟨some 'v', "--verbose", false⟩, ⟨some 'g', "--grammar", true⟩, ⟨none, "--version", false⟩,
   helpFlag]

/-- The option that chooses the output format. -/
def formatFlag : Flag := ⟨some 'f', "--format", true⟩

/-- The option that leaves out comments. -/
def noCommentsFlag : Flag := ⟨none, "--no-comments", false⟩

/-- The option that makes warnings count. -/
def strictFlag : Flag := ⟨none, "--strict", false⟩

/-- Checks that a file that was named for `name` exists and is no directory. -/
def checkFile (tree : File.Tree) (name path : String) : Except UsageError Unit :=
  match tree.stat path with
  | .ok (.file _) => .ok ()
  | .ok .directory => .error (.invalidValue name s!"File {Text.quoted path} is a directory.")
  | .error _ => .error (.invalidValue name s!"File {Text.quoted path} does not exist.")

def checkFiles (tree : File.Tree) (name : String) : List String → Except UsageError Unit
  | [] => .ok ()
  | path :: rest => do
    checkFile tree name path
    checkFiles tree name rest

def readFormat (words : Words) : Except UsageError Format :=
  match words.value? formatFlag.long with
  | none => .ok .text
  | some "text" => .ok .text
  | some "json" => .ok .json
  | some other =>
    .error (.invalidValue "'-f' / '--format'"
      s!"{Text.quoted other} is not one of 'text', 'json'.")

/-- The only file argument. -/
def readFile (tree : File.Tree) : List String → Except UsageError String
  | [] => .error (.missingArgument "INPUT_FILE")
  | file :: rest => do
    checkFile tree "'INPUT_FILE'" file
    if rest.isEmpty then return file else .error (.extraArguments rest)

/-- One or more file arguments. -/
def readFiles (tree : File.Tree) (files : List String) : Except UsageError (List String) :=
  if files.isEmpty then .error (.missingArgument "INPUT_FILES...")
  else (checkFiles tree "'INPUT_FILES...'" files).map fun _ => files

/-- No arguments. -/
def readNothing (rest : List String) : Except UsageError Unit :=
  if rest.isEmpty then .ok () else .error (.extraArguments rest)

/-- Reads the words after a command; nothing when the command's help is asked for. -/
def readAction (tree : File.Tree) (name : String) (rest : List String) :
    Except UsageError (Option Action) :=
  let read (flags : List Flag) (build : Words → Except UsageError Action) :
      Except UsageError (Option Action) := do
    let words ← readWords (flags ++ [helpFlag]) true rest
    if words.has helpFlag.long then return none
    (build words).map some
  match name with
  | "tokens" => read [formatFlag, noCommentsFlag] fun words => do
    let format ← readFormat words
    let file ← readFile tree words.arguments
    return .tokens file format (words.has noCommentsFlag.long)
  | "check" => read [strictFlag, formatFlag] fun words => do
    let format ← readFormat words
    let files ← readFiles tree words.arguments
    return .check files format (words.has strictFlag.long)
  | "labels" => read [] fun words => do
    let file ← readFile tree words.arguments
    return .labels file
  | "grammar" => read [] fun words => do
    readNothing words.arguments
    return .grammar
  | _ => .error (.noSuchCommand name)

/-- The first option that asks for the version or the help. -/
def information? (words : Words) : Option Invocation :=
  words.options.findSome? fun g =>
    if g.long = "--version" then some .version
    else if g.long = "--help" then some .help
    else none

def checkGrammar (tree : File.Tree) : Option String → Except UsageError Unit
  | none => .ok ()
  | some path => checkFile tree "'-g' / '--grammar'" path

def readInvocation (tree : File.Tree) (arguments : List String) :
    Except UsageError Invocation := do
  if arguments.isEmpty then return .help
  let words ← readWords programFlags false arguments
  match information? words with
  | some shown => return shown
  | none =>
    let grammar := words.value? "--grammar"
    checkGrammar tree grammar
    match words.arguments with
    | [] => .error .missingCommand
    | name :: rest =>
      match ← readAction tree name rest with
      | none => return .help
      | some action => return .run (words.has "--verbose") grammar action

end AsmHighlight.Command
