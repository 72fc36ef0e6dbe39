-- SUMMARY: Everything that can keep a document from being highlighted.
import AsmHighlight.File.Tree
import AsmHighlight.Json.Reader
import AsmHighlight.Json.Render
import AsmHighlight.Refusal
import AsmHighlight.Token.Basic

/-!
# Failures

Work on files can fail before a document is seen: the grammar or the settings
are refused, a file cannot be opened, its bytes are not text, or its values are
nested too deep or have no text. Work on the document itself fails only on
integers that are too long.
-/

namespace AsmHighlight

/-- Why there is no result. -/
inductive Failure where
  | grammar (refusal : Refusal)
  | settings (refusal : Refusal)
  | file (fault : File.Fault)
  /-- The path of a file has a null character. -/
  | nullPath
  | encoding (fault : Text.EncodingFault)
  | nesting (container : Json.Container)
  | unrendered (cause : Json.Unrendered)
  | token (fault : Token.Fault)
  deriving DecidableEq, Repr

def Failure.message : Failure → String
  | .grammar refusal => refusal.text
  | .settings refusal => refusal.text
  | .file fault => fault.message
  | .nullPath => "embedded null byte"
  | .encoding fault => fault.message
  | .nesting container =>
    let noun := container.noun
    s!"maximum recursion depth exceeded while decoding a JSON {noun} from a unicode string"
  | .unrendered cause => cause.message
  | .token fault => fault.message

end AsmHighlight
