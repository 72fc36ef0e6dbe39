-- SUMMARY: Loading grammar extensions from files.
import AsmHighlight.Failure
import AsmHighlight.Grammar.Extension
import AsmHighlight.Json.Reader
import AsmHighlight.Log
import AsmHighlight.Text.Line

/-!
# Grammar files

A grammar file is JSON text in UTF-8 with any line ends. What is wrong with the
file's name, form or content is refused under the file's name; a null character
in the name, bytes that are no text, integers that are too long and values that
are nested too deep are failures of their own.
-/

namespace AsmHighlight.Grammar

/-- The value that a grammar file holds. -/
def readFile (tree : File.Tree) (path : String) : Except Failure Json := do
  let bytes ← (tree.read path).mapError fun unread =>
    match unread with
    | .system fault => .grammar ⟨s!"cannot read grammar file: {fault.cause.text}", some path, none⟩
    | .nullCharacter => .nullPath
  let decoded ← (Text.Encoding.utf8.decode bytes).mapError .encoding
  let text := String.ofList (Text.unifyLineEnds decoded.toList)
  (Json.read text).mapError fun fault =>
    match fault with
    | .overlong cause => .token (.overlong cause)
    | .tooDeep container => .nesting container
    | .malformed reason offset =>
      let (line, column) := Json.lineAndColumn text offset
      .grammar ⟨s!"invalid JSON at line {line}, column {column}: {reason.text}", some path, none⟩

/-- The record of an extension that is about to be added. -/
def extensionRecord (base : Grammar) (ext : Extension) : Log.Record :=
  .extendingGrammar (ext.allMnemonics base).length ext.registers.length ext.jumps.length

/-- The failure of a file whose extension was rejected. -/
def Rejection.failure (path : String) : Rejection → Failure
  | .refused fault => .grammar (fault.refusal (some path))
  | .unrendered cause => .unrendered cause

/-- Adds an extension that was read from a file. -/
def addFrom (base : Grammar) (path : String) (data : Json) : Logged Failure Grammar :=
  match Extension.ofJson data with
  | .error rejection => ⟨[], .error (rejection.failure path)⟩
  | .ok ext =>
    match base.add ext with
    | .error fault => ⟨[], .error (Rejection.failure path (.refused fault))⟩
    | .ok grammar => ⟨[base.extensionRecord ext], .ok grammar⟩

/-- Adds the extension in the file at a path. -/
def load (base : Grammar) (tree : File.Tree) (path : String) : Logged Failure Grammar :=
  let path := File.normalize path
  match readFile tree path with
  | .error failure => ⟨[], .error failure⟩
  | .ok data => base.addFrom path data

end AsmHighlight.Grammar
