-- SUMMARY: The labels of a document and where each is first declared.
import AsmHighlight.Token.Basic

/-!
# Label tables

A table holds each label once, in the order of first declaration. Declaring a
name again leaves the table as it is and gives the entry that was there.
`Label.collect` builds the table of a document and reports every repeated
declaration.
-/

namespace AsmHighlight

/-- A declared label and where it was declared. -/
structure Label where
  name : String
  range : Range
  deriving DecidableEq, Repr

namespace Label

/-- The labels of a document, in order of declaration. -/
abbrev Table := List Label

namespace Table

/-- The label of a name. -/
def lookup (table : Table) (name : String) : Option Label :=
  table.find? fun label => label.name = name

def names (table : Table) : List String :=
  table.map Label.name

/-- Declares a label: the new table, and the earlier label of the same name. -/
def declare (table : Table) (name : String) (range : Range) : Table × Option Label :=
  match table.lookup name with
  | some label => (table, some label)
  | none => (table ++ [⟨name, range⟩], none)

def display (table : Table) : String :=
  let listed := String.intercalate ", " table.names
  s!"LabelTable({listed})"

/-- The table as a JSON object from names to ranges. -/
def toJson (table : Table) : Json :=
  .object (table.map fun label => (label.name, label.range.toJson))

end Table

def toJson (label : Label) : Json :=
  .object [("name", .str label.name), ("range", label.range.toJson)]

/-- The diagnostic for a label that is declared again at `range`. -/
def duplicate (name : String) (range : Range) (first : Label) : Diagnostic where
  code := .duplicateLabel
  range := range
  message := s!"duplicate label '{name}'"
  hint := some s!"'{name}' was first declared at {first.range.start.text}"

/-- Adds the declarations among the tokens to a table. -/
def collectFrom (table : Table) : List Token → Except Token.Fault (Table × List Diagnostic)
  | [] => .ok (table, [])
  | token :: rest =>
    if token.category = .labelDeclaration then do
      let name ← Token.require "name" token.name?
      match table.declare name token.range with
      | (table, none) => collectFrom table rest
      | (table, some first) =>
        let (table, more) ← collectFrom table rest
        return (table, duplicate name token.range first :: more)
    else collectFrom table rest

/-- The label table of a document, and a diagnostic for each repeated declaration. -/
def collect (tokens : List Token) : Except Token.Fault (Table × List Diagnostic) :=
  collectFrom [] tokens

end Label

end AsmHighlight
