-- SUMMARY: Tokens as the delta-encoded integers that editors take.
import AsmHighlight.Stream.Basic

/-!
# Semantic tokens

Editors take tokens as groups of five integers: the distance in lines from the
token before, the distance in characters (from the start of the line when the
line changed), the length, the index of the category, and a set of modifier
bits. Lines and characters are counted from zero here.
-/

namespace AsmHighlight.Stream

/-- The bit of a token that declares a label. -/
def declarationBit : Int := 1

/-- The bit of a reference whose label is not declared. -/
def unresolvedBit : Int := 2

def modifiers (t : Token) : Int :=
  match t.category with
  | .labelDeclaration => declarationBit
  | .labelReference => if t.isResolved then 0 else unresolvedBit
  | _ => 0

/-- The integers of the tokens after one on the given line and character. -/
def semanticFrom (line char : Int) : List Token → List Int
  | [] => []
  | t :: rest =>
    let tokenLine := t.range.start.line - 1
    let tokenChar := t.range.start.column - 1
    let deltaLine := tokenLine - line
    let deltaChar := if deltaLine = 0 then tokenChar - char else tokenChar
    deltaLine :: deltaChar :: t.range.length :: (t.category.index : Int) :: modifiers t ::
      semanticFrom tokenLine tokenChar rest

/-- The tokens of a stream as integers, five for each. -/
def semanticTokens (s : Stream) : List Int :=
  semanticFrom 0 0 s.tokens

end AsmHighlight.Stream
