-- SUMMARY: Reading options and arguments from the command line.
import AsmHighlight.Command.Spelling
import AsmHighlight.Text.Quoted

/-!
# Options and arguments

A long option is given as `--name`, with a value after a blank or an equals
sign. Short options can be clustered; one that takes a value takes the rest of
the cluster or the next word. Two dashes end the options. A reader either
stops at the first argument or goes on behind it, as the command asks.
-/

namespace AsmHighlight.Command

/-- An option that a command understands. -/
structure Flag where
  short : Option Char
  long : String
  takesValue : Bool
  deriving DecidableEq, Repr

/-- Why the command line was not understood. -/
inductive UsageError where
  | missingCommand
  | noSuchCommand (name : String)
  | noSuchOption (name : String) (close : List String)
  | needsValue (option : String)
  | takesNoValue (option : String)
  | missingArgument (name : String)
  | invalidValue (name : String) (problem : String)
  | extraArguments (arguments : List String)
  deriving DecidableEq, Repr

/-- The close matches for an option that does not exist, in words. -/
def closeNote : List String → String
  | [] => ""
  | [name] => s!" Did you mean {name}?"
  | names =>
    let listed := String.intercalate ", " names
    s!" (Possible options: {listed})"

def UsageError.message : UsageError → String
  | .missingCommand => "Missing command."
  | .noSuchCommand name => s!"No such command {Text.quoted name}."
  | .noSuchOption name close => s!"No such option: {name}{closeNote close}"
  | .needsValue option => s!"Option {Text.quoted option} requires an argument."
  | .takesNoValue option => s!"Option {Text.quoted option} does not take a value."
  | .missingArgument name => s!"Missing argument '{name}'."
  | .invalidValue name problem => s!"Invalid value for {name}: {problem}"
  | .extraArguments arguments =>
    let ending := if arguments.length = 1 then "" else "s"
    let listed := String.intercalate " " arguments
    s!"Got unexpected extra argument{ending} ({listed})"

/-- An option as given: its long name and its value. -/
structure Given where
  long : String
  value : Option String
  deriving DecidableEq, Repr

/-- What was read: the options in order, and the arguments. -/
structure Words where
  options : List Given
  arguments : List String
  deriving DecidableEq, Repr

/-- An option read from one word, and whether the next word is its value. -/
structure OptionWord where
  options : List Given
  usedNext : Bool

/-- Reads a long option with an optional attached value. -/
def readLong (flags : List Flag) (name : String) (attached next : Option String) :
    Except UsageError OptionWord :=
  match flags.find? fun f => f.long = name with
  | none => .error (.noSuchOption name (closeMatches name (flags.map Flag.long)))
  | some f =>
    if f.takesValue then
      match attached, next with
      | some value, _ => .ok ⟨[⟨f.long, some value⟩], false⟩
      | none, some value => .ok ⟨[⟨f.long, some value⟩], true⟩
      | none, none => .error (.needsValue name)
    else if attached.isSome then .error (.takesNoValue name)
    else .ok ⟨[⟨f.long, none⟩], false⟩

/-- Reads a cluster of short options. -/
def readCluster (flags : List Flag) (next : Option String) :
    List Char → Except UsageError OptionWord
  | [] => .ok ⟨[], false⟩
  | c :: rest =>
    let name := String.ofList ['-', c]
    match flags.find? fun f => f.short = some c with
    | none => .error (.noSuchOption name [])
    | some f =>
      if f.takesValue then
        match rest, next with
        | _ :: _, _ => .ok ⟨[⟨f.long, some (String.ofList rest)⟩], false⟩
        | [], some value => .ok ⟨[⟨f.long, some value⟩], true⟩
        | [], none => .error (.needsValue name)
      else
        (readCluster flags next rest).map fun more =>
          ⟨⟨f.long, none⟩ :: more.options, more.usedNext⟩

/-- The part of a word before an equals sign, and the part after it. -/
def splitAttached (word : String) : String × Option String :=
  let isName := fun c => c != '='
  match word.toList.dropWhile isName with
  | [] => (word, none)
  | _ :: value => (String.ofList (word.toList.takeWhile isName), some (String.ofList value))

/-- The word is an option and not an argument. -/
def isOptionWord (word : String) : Bool :=
  match word.toList with
  | '-' :: _ :: _ => true
  | _ => false

/-- Reads a word that is an option. A single dash also introduces a long name, if
    there is such a name. -/
def readOption (flags : List Flag) (word : String) (next : Option String) :
    Except UsageError OptionWord :=
  let (name, attached) := splitAttached word
  if flags.any fun f => f.long = name then readLong flags name attached next
  else
    match word.toList with
    | '-' :: '-' :: _ => readLong flags name attached next
    | _ => readCluster flags next (word.toList.drop 1)

/-- Reads the words of a command line. With `mixed`, options may stand behind
    arguments. -/
def readWords (flags : List Flag) (mixed : Bool) : List String → Except UsageError Words
  | [] => .ok ⟨[], []⟩
  | word :: rest =>
    if word = "--" then .ok ⟨[], rest⟩
    else if isOptionWord word then do
      let read ← readOption flags word rest.head?
      match rest with
      | [] => return ⟨read.options, []⟩
      | value :: after =>
        if read.usedNext then
          (readWords flags mixed after).map fun more =>
            ⟨read.options ++ more.options, more.arguments⟩
        else
          (readWords flags mixed (value :: after)).map fun more =>
            ⟨read.options ++ more.options, more.arguments⟩
    else if mixed then
      (readWords flags mixed rest).map fun more => ⟨more.options, word :: more.arguments⟩
    else .ok ⟨[], word :: rest⟩

def Words.has (w : Words) (long : String) : Bool :=
  w.options.any fun g => g.long = long

/-- The value that was given last for an option. -/
def Words.value? (w : Words) (long : String) : Option String :=
  (w.options.reverse.find? fun g => g.long = long).bind Given.value

end AsmHighlight.Command
