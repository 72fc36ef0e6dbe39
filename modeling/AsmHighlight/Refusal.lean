-- SUMMARY: Why a grammar file or a setting was refused.

/-!
# Refusals

Mistakes outside the document, in a grammar file or in the settings, are
refused with a message. The message names the file it comes from, if there is
one, and may end with a hint. An empty file name or hint counts as none.
-/

namespace AsmHighlight

/-- A refused grammar file or setting. -/
structure Refusal where
  message : String
  path : Option String := none
  hint : Option String := none
  deriving DecidableEq, Repr

namespace Refusal

/-- The message after the name of the file it concerns. -/
def headline (r : Refusal) : String :=
  match r.path.filter (· ≠ "") with
  | some path => s!"{path}: {r.message}"
  | none => r.message

def text (r : Refusal) : String :=
  match r.hint.filter (· ≠ "") with
  | some hint => s!"{r.headline}\nhint: {hint}"
  | none => r.headline

end Refusal

end AsmHighlight
