-- SUMMARY: Classifying lexemes into tokens.
import AsmHighlight.Lexeme.Basic
import AsmHighlight.Literal.Integer
import AsmHighlight.Literal.Text
import AsmHighlight.Token.Basic

/-!
# Classification

Each lexeme becomes one token. A word is, by the first rule that applies:

* a directive, after a number sign;
* a label declaration, after a point, if it is the first token of its line;
* an integer literal, if it starts like a number;
* an identifier, if it follows a jump and has the shape of a name: the operand
  of a jump is a label even when it is spelled like a mnemonic or register;
* a mnemonic, a register, or an identifier.

What fits no rule is invalid, and its attributes say why.
-/

namespace AsmHighlight.Token

/-- A token with the place of a lexeme. -/
def ofLexeme (category : Category) (l : Lexeme) (attributes : List Attribute) : Token :=
  ⟨category, l.text, l.range, attributes⟩

def invalid (l : Lexeme) (reason : String) (hint : Option String := none) : Token :=
  ofLexeme .invalid l (.reason reason :: hint.toList.map .hint)

/-- The token is a mnemonic whose operand is a label. -/
def isJump (g : Grammar) (caseSensitive : Bool) (t : Token) : Bool :=
  t.category == .mnemonic && g.isJump caseSensitive t.text

/-- Classifies a word that starts with a number sign. -/
def classifyDirective (g : Grammar) (l : Lexeme) : Token :=
  let name := String.ofList (l.text.toList.drop 1)
  match g.directive? name with
  | some _ => ofLexeme .directiveKeyword l [.directive name]
  | none =>
    let known := String.intercalate ", " (g.directives.map fun d => "#" ++ d.name)
    invalid l s!"unknown directive '{l.text}'" (some s!"expected one of {known}")

/-- Classifies a word that starts with a point; `first` says that it is the first
    token of its line. -/
def classifyLabel (first : Bool) (l : Lexeme) : Token :=
  let name := Literal.labelName l.text
  if first then
    if Literal.isIdentifier name then ofLexeme .labelDeclaration l [.name name]
    else invalid l s!"invalid label name '{l.text}'"
  else
    invalid l s!"label declaration '{l.text}' must be the first token on its line"
      (if name = "" then none else some s!"to jump to it, use 'jp {name}'")

/-- Classifies a word that starts like a number. -/
def classifyNumber (l : Lexeme) : Except Decimal.Overlong Token :=
  (Literal.parseInteger l.text).map fun value =>
    match value with
    | some v => ofLexeme .integerLiteral l [.integerValue v]
    | none => invalid l s!"malformed integer literal '{l.text}'"

/-- Classifies any other word; `afterJump` says that a jump stands before it on its
    line. -/
def classifyPlain (g : Grammar) (caseSensitive afterJump : Bool) (l : Lexeme) : Token :=
  if afterJump && Literal.isIdentifier l.text then ofLexeme .identifier l []
  else if g.isMnemonic caseSensitive l.text then ofLexeme .mnemonic l []
  else if g.isRegister caseSensitive l.text then ofLexeme .register l []
  else if Literal.isIdentifier l.text then ofLexeme .identifier l []
  else invalid l s!"unexpected characters '{l.text}'"

/-- Classifies a word; `previous` is the token before it on its line. -/
def classifyWord (g : Grammar) (caseSensitive : Bool) (previous : Option Token) (l : Lexeme) :
    Except Decimal.Overlong Token :=
  match l.text.toList with
  | '#' :: _ => .ok (classifyDirective g l)
  | '.' :: _ => .ok (classifyLabel previous.isNone l)
  | _ =>
    if Literal.startsNumeric l.text then classifyNumber l
    else .ok (classifyPlain g caseSensitive (previous.any (isJump g caseSensitive)) l)

/-- Classifies a lexeme; `previous` is the token before it on its line. -/
def classify (g : Grammar) (caseSensitive : Bool) (previous : Option Token) (l : Lexeme) :
    Except Decimal.Overlong Token :=
  match l.kind with
  | .comment => .ok (ofLexeme .comment l [])
  | .punctuation => .ok (ofLexeme .punctuation l [])
  | .string => .ok (ofLexeme .stringLiteral l [.stringValue (Literal.decodeString l.text)])
  | .invalid => .ok (invalid l ((l.error.filter (· ≠ "")).getD "malformed lexeme"))
  | .word => classifyWord g caseSensitive previous l

/-- Classifies lexemes in order; `previous` is the token before them. -/
def classifyFrom (g : Grammar) (caseSensitive : Bool) (previous : Option Token) :
    List Lexeme → Except Decimal.Overlong (List Token)
  | [] => .ok []
  | l :: rest => do
    let onLine := previous.filter fun t => t.line = l.line
    let token ← classify g caseSensitive onLine l
    let tokens ← classifyFrom g caseSensitive (some token) rest
    return token :: tokens

/-- Classifies the lexemes of a document. -/
def classifyAll (g : Grammar) (caseSensitive : Bool) (lexemes : List Lexeme) :
    Except Decimal.Overlong (List Token) :=
  classifyFrom g caseSensitive none lexemes

/-- The diagnostic for an invalid token. -/
def malformed? (t : Token) : Option Diagnostic :=
  if t.category = .invalid then
    some ⟨.malformedLexeme, t.range, t.reason?.getD "", .error, t.hint?⟩
  else none

end AsmHighlight.Token
