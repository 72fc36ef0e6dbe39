-- SUMMARY: Tokens: classified spans of a document with what is known about them.
import AsmHighlight.Diagnostic.Basic
import AsmHighlight.Grammar.Basic

/-!
# Tokens

A token is a span of the document with a category and a list of attributes:
what the analysis has found out about it. Callers may attach attributes of
their own, which are carried along.
-/

namespace AsmHighlight

/-- What a token is. -/
inductive Token.Category where
  | mnemonic
  | register
  | integerLiteral
  | stringLiteral
  | directiveKeyword
  | labelDeclaration
  | labelReference
  | identifier
  | comment
  | punctuation
  | invalid
  deriving DecidableEq, Repr

namespace Token.Category

/-- The categories in the order of the editor's legend. -/
def all : List Category :=
  [.mnemonic, .register, .integerLiteral, .stringLiteral, .directiveKeyword, .labelDeclaration,
   .labelReference, .identifier, .comment, .punctuation, .invalid]

/-- The category's name in data. -/
def name : Category → String
  | .mnemonic => "mnemonic"
  | .register => "register"
  | .integerLiteral => "integerLiteral"
  | .stringLiteral => "stringLiteral"
  | .directiveKeyword => "directiveKeyword"
  | .labelDeclaration => "labelDeclaration"
  | .labelReference => "labelReference"
  | .identifier => "identifier"
  | .comment => "comment"
  | .punctuation => "punctuation"
  | .invalid => "invalid"

/-- The category's name in displays. -/
def constantName : Category → String
  | .mnemonic => "MNEMONIC"
  | .register => "REGISTER"
  | .integerLiteral => "INTEGER_LITERAL"
  | .stringLiteral => "STRING_LITERAL"
  | .directiveKeyword => "DIRECTIVE_KEYWORD"
  | .labelDeclaration => "LABEL_DECLARATION"
  | .labelReference => "LABEL_REFERENCE"
  | .identifier => "IDENTIFIER"
  | .comment => "COMMENT"
  | .punctuation => "PUNCTUATION"
  | .invalid => "INVALID"

def ofName? (s : String) : Option Category :=
  all.find? fun c => c.name = s

/-- The place of the category in the legend. -/
def index (c : Category) : Nat :=
  all.idxOf c

end Token.Category

/-- A fact about a token. -/
inductive Token.Attribute where
  /-- The value of an integer literal. -/
  | integerValue (value : Int)
  /-- The value of a string literal. -/
  | stringValue (value : String)
  /-- The name that a label declares or a reference means. -/
  | name (name : String)
  /-- The name of a directive. -/
  | directive (name : String)
  /-- The kind of literal that a directive takes. -/
  | literalKind (kind : LiteralKind)
  /-- The width that a directive's operand must fit. -/
  | bitWidth (bits : Option Nat)
  /-- Why a token is invalid. -/
  | reason (text : String)
  /-- What to do about an invalid token. -/
  | hint (text : String)
  /-- Whether the label that a reference means is declared. -/
  | resolved (found : Bool)
  /-- Where the label that a reference means is declared. -/
  | declaration (range : Range)
  /-- A fact that a caller has attached. -/
  | other (key : String) (value : Json)
  deriving DecidableEq, Repr

namespace Token.Attribute

/-- The attribute's key in data. -/
def key : Attribute → String
  | .integerValue _ => "value"
  | .stringValue _ => "value"
  | .name _ => "name"
  | .directive _ => "directive"
  | .literalKind _ => "literal_kind"
  | .bitWidth _ => "bit_width"
  | .reason _ => "reason"
  | .hint _ => "hint"
  | .resolved _ => "resolved"
  | .declaration _ => "declaration"
  | .other key _ => key

/-- The attribute's value in data. -/
def toJson : Attribute → Json
  | .integerValue v => .int v
  | .stringValue s => .str s
  | .name s => .str s
  | .directive s => .str s
  | .literalKind kind => .str kind.name
  | .bitWidth none => .null
  | .bitWidth (some bits) => .int bits
  | .reason s => .str s
  | .hint s => .str s
  | .resolved b => .bool b
  | .declaration r => r.toJson
  | .other _ value => value

end Token.Attribute

/-- A classified span of a document. -/
structure Token where
  category : Token.Category
  text : String
  range : Range
  attributes : List Token.Attribute := []
  deriving DecidableEq, Repr

/-- What an analysis of tokens can fail on. Tokens that come from a document carry
    every attribute, so on documents only conversions fail. -/
inductive Token.Fault where
  /-- A token lacks an attribute that its category should have. -/
  | missing (key : String)
  /-- A directive token names a directive that the grammar does not have. -/
  | unknownDirective (name : String)
  /-- An integer is too long to be read or shown. -/
  | overlong (cause : Decimal.Overlong)
  deriving DecidableEq, Repr

def Token.Fault.message : Token.Fault → String
  | .missing key => Text.quoted key
  | .unknownDirective name => s!"unknown directive '{name}'"
  | .overlong cause => cause.message

namespace Token

def line (t : Token) : Int :=
  t.range.line

def integerValue? (t : Token) : Option Int :=
  t.attributes.findSome? fun a => match a with | .integerValue v => some v | _ => none

def name? (t : Token) : Option String :=
  t.attributes.findSome? fun a => match a with | .name s => some s | _ => none

def directiveName? (t : Token) : Option String :=
  t.attributes.findSome? fun a => match a with | .directive s => some s | _ => none

def literalKind? (t : Token) : Option LiteralKind :=
  t.attributes.findSome? fun a => match a with | .literalKind kind => some kind | _ => none

def bitWidth? (t : Token) : Option Nat :=
  t.attributes.findSome? fun a => match a with | .bitWidth bits => bits | _ => none

def reason? (t : Token) : Option String :=
  t.attributes.findSome? fun a => match a with | .reason s => some s | _ => none

def hint? (t : Token) : Option String :=
  t.attributes.findSome? fun a => match a with | .hint s => some s | _ => none

/-- The label that the token refers to is known to be declared. -/
def isResolved (t : Token) : Bool :=
  t.attributes.any fun a => match a with | .resolved b => b | _ => false

/-- Where the label that the token refers to is declared. -/
def declaration? (t : Token) : Option Range :=
  t.attributes.findSome? fun a => match a with | .declaration r => some r | _ => none

/-- The value, or a fault that names the missing attribute. -/
def require (key : String) : Option α → Except Fault α
  | some value => .ok value
  | none => .error (.missing key)

def display (t : Token) : String :=
  s!"Token({t.category.constantName}, {Text.quoted t.text}, {t.range.start.text})"

/-- The token as a JSON object; attributes are shown only when there are some. -/
def toJson (t : Token) : Json :=
  let fields := [("category", .str t.category.name), ("text", .str t.text),
    ("range", t.range.toJson)]
  if t.attributes.isEmpty then .object fields
  else .object (fields ++ [("metadata", .object (t.attributes.map fun a => (a.key, a.toJson)))])

end Token

end AsmHighlight
