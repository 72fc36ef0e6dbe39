-- SUMMARY: Highlighting files.
import AsmHighlight.Failure
import AsmHighlight.Highlighter

/-!
# Highlighting files

A file is decoded as it is, with its line ends, so that offsets count the
characters of the file. Unless the caller names a version, the path names it.
-/

namespace AsmHighlight.Highlighter

/-- The text of the file at a path, which is in normal form. -/
def readSource (tree : File.Tree) (encoding : Text.Encoding) (path : String) :
    Except Failure String := do
  let bytes ← (tree.read path).mapError fun unread =>
    match unread with
    | .system fault => .file fault
    | .nullCharacter => .nullPath
  (encoding.decode bytes).mapError .encoding

/-- The version of a document that comes from a file. -/
def versionOf (version : Json) (path : String) : Json :=
  match version with
  | .null => .str path
  | named => named

def highlightFile (h : Highlighter) (tree : File.Tree) (path : String)
    (encoding : Text.Encoding := .utf8) (version : Json := .null) : Logged Failure Stream :=
  let path := File.normalize path
  match readSource tree encoding path with
  | .error failure => ⟨[.highlighting path], .error failure⟩
  | .ok source =>
    let run := h.run source (versionOf version path)
    ⟨.highlighting path :: run.log, run.result.mapError .token⟩

end AsmHighlight.Highlighter
