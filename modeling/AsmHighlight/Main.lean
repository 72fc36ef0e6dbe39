-- SUMMARY: The command line program.
import AsmHighlight.Command.Run

/-!
# The program

Everything that is decided is decided by `AsmHighlight.Command.run`. The program
takes a snapshot of the files that the command line may name, and of the
environment, and prints what the command prints. Only files below the working
directory are part of the snapshot.
-/

namespace AsmHighlight.Command

/-- The paths that a word of the command line may name: itself, what is attached to a
    long option, and what is attached to a short one. -/
def namedPaths (word : String) : List String :=
  let attached := (splitAttached word).2
  word :: attached.toList ++ [String.ofList (word.toList.drop 2)]

/-- Adds what stands at a path, if anything does. -/
def addPath (known : List (String × List UInt8) × List String) (path : String) :
    IO (List (String × List UInt8) × List String) := do
  try
    let place ← IO.FS.realPath path
    if ← place.isDir then return (known.1, path :: known.2)
    let bytes ← IO.FS.readBinFile place
    return ((path, bytes.toList) :: known.1, known.2)
  catch _ => return known

/-- The snapshot of the files that the words of a command line may name. -/
def snapshot (words : List String) : IO File.Tree := do
  let (files, directories) ← (words.flatMap namedPaths).foldlM addPath ([], [])
  return .ofPaths files directories

/-- The variables of the environment that are set. -/
def environment : IO (List (String × String)) := do
  let values ← Settings.variableNames.mapM fun name => return (name, ← IO.getEnv name)
  return values.filterMap fun (name, value) => value.map fun text => (name, text)

/-- What the program adds to the error output for the way a command ends. -/
def Ending.note : Ending → String
  | .exit _ => ""
  | .usage error => s!"Error: {error.message}\n"
  | .escaped fault => s!"{fault.message}\n"

end AsmHighlight.Command

open AsmHighlight.Command in
def main (words : List String) : IO UInt32 := do
  let outcome := run (← snapshot words) (← environment) words
  IO.print outcome.transcript.output
  IO.eprint (outcome.transcript.errors ++ outcome.ending.note)
  return outcome.ending.status.toUInt32
