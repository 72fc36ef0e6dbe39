-- SUMMARY: A tree of files, and how looking up a path in it can fail.
import AsmHighlight.File.Path
import AsmHighlight.Text.Encoding

/-!
# File trees

Commands work on a snapshot of the files they may read: the files with their
contents and the directories that hold them, all named from the working
directory. A path is followed component by component. What lies outside the
working directory is not part of a snapshot, so nothing is found there.

No system takes a path with a null character, so such a path is not followed at
all when a file is to be read.
-/

namespace AsmHighlight.File

/-- Why a file could not be opened. -/
inductive Fault.Cause where
  | notFound
  | isDirectory
  | notDirectory
  | nameTooLong
  deriving DecidableEq, Repr

/-- The number of the cause in the system's list. -/
def Fault.Cause.number : Fault.Cause → Nat
  | .notFound => 2
  | .isDirectory => 21
  | .notDirectory => 20
  | .nameTooLong => 36

def Fault.Cause.text : Fault.Cause → String
  | .notFound => "No such file or directory"
  | .isDirectory => "Is a directory"
  | .notDirectory => "Not a directory"
  | .nameTooLong => "File name too long"

/-- A file that could not be opened. -/
structure Fault where
  cause : Fault.Cause
  path : String
  deriving DecidableEq, Repr

def Fault.message (f : Fault) : String :=
  s!"[Errno {f.cause.number}] {f.cause.text}: {Text.quoted f.path}"

/-- Why there is no content to work on. -/
inductive Unread where
  /-- The system did not open the file. -/
  | system (fault : Fault)
  /-- The path has a null character. -/
  | nullCharacter
  deriving DecidableEq, Repr

/-- What a path leads to. -/
inductive Node where
  | file (content : List UInt8)
  | directory
  deriving DecidableEq, Repr

/-- A snapshot: files and directories under the components of their paths. -/
structure Tree where
  files : List (List String × List UInt8)
  directories : List (List String)

namespace Tree

/-- The beginnings of a list of components, without the whole. -/
def ancestors : List String → List (List String)
  | [] => []
  | c :: rest => [] :: (ancestors rest).map (c :: ·)

/-- A tree of the files and directories at these paths, with all that hold them. -/
def ofPaths (files : List (String × List UInt8)) (directories : List String) : Tree where
  files := files.map fun (path, content) => (components path, content)
  directories :=
    [] :: (files.flatMap fun (path, _) => ancestors (components path)) ++
      directories.flatMap fun path => components path :: ancestors (components path)

/-- What stands at a place, given by components. -/
def node? (t : Tree) (place : List String) : Option Node :=
  match t.files.find? fun (p, _) => p = place with
  | some (_, content) => some (.file content)
  | none => if place ∈ t.directories then some .directory else none

/-- The most bytes that a component of a path may take. -/
def maxName : Nat := 255

/-- The most bytes that a path may take. -/
def maxPath : Nat := 4095

/-- Follows the components of a path from a place; `none` is a place outside the
    working directory, of which nothing is known but that it is a directory. -/
def follow (t : Tree) (place : Option (List String)) : List String → Except Fault.Cause Node
  | [] =>
    match place with
    | none => .ok .directory
    | some p => (t.node? p).elim (.error .notFound) .ok
  | step :: rest =>
    match place with
    | none =>
      if step = "" ∨ step = "." ∨ step = ".." then t.follow none rest
      else .error (if maxName < step.utf8ByteSize then .nameTooLong else .notFound)
    | some p =>
      match t.node? p with
      | none => .error .notFound
      | some (.file _) => .error .notDirectory
      | some .directory =>
        if step = "" ∨ step = "." then t.follow (some p) rest
        else if step = ".." then t.follow (if p.isEmpty then none else some p.dropLast) rest
        else if maxName < step.utf8ByteSize then .error .nameTooLong
        else t.follow (some (p ++ [step])) rest

/-- What a path leads to. An empty path leads nowhere. -/
def stat (t : Tree) (path : String) : Except Fault.Cause Node :=
  if maxPath < path.utf8ByteSize then .error .nameTooLong
  else
    match path.toList with
    | [] => .error .notFound
    | '/' :: _ => t.follow none (pieces path)
    | _ => t.follow (some []) (pieces path)

def read (t : Tree) (path : String) : Except Unread (List UInt8) :=
  if hasNull path then .error .nullCharacter
  else
    match t.stat path with
    | .ok (.file content) => .ok content
    | .ok .directory => .error (.system ⟨.isDirectory, path⟩)
    | .error cause => .error (.system ⟨cause, path⟩)

end Tree

end AsmHighlight.File
