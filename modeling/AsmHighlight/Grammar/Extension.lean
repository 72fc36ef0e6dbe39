-- SUMMARY: Grammar extensions: reading them from JSON values and adding them to a grammar.
import AsmHighlight.Grammar.Default
import AsmHighlight.Json.Render
import AsmHighlight.Literal.Name
import AsmHighlight.Refusal
import AsmHighlight.Text.Order

/-!
# Grammar extensions

An extension is a JSON object that lists mnemonics, registers and jumps. The
mnemonics are a list of names, or an object from names to a description, to an
object with `operands` and `description`, or to nothing. Names are kept in
lower case. A jump that is no mnemonic yet becomes one. No name may be a
mnemonic and a register at once.

`Extension.ofJson` checks the shape and reports the first fault in the order
in which the parts are read; `Grammar.add` checks the names against the base.
What is no name is rendered for the report, and so are the members of an entry,
which need not be texts. Where that fails, the extension is not refused for a
fault, but it is not read either (`Rejection.unrendered`).
-/

namespace AsmHighlight.Grammar

/-- The parts of an extension. -/
inductive Part where
  | mnemonics
  | registers
  | jumps
  deriving DecidableEq, Repr

def Part.key : Part → String
  | .mnemonics => "mnemonics"
  | .registers => "registers"
  | .jumps => "jump_mnemonics"

/-- What a name in a part is called in messages. -/
def Part.entry : Part → String
  | .mnemonics => "mnemonic"
  | .registers => "register"
  | .jumps => "jump_mnemonic"

/-- The keys an extension may have, sorted. -/
def knownKeys : List String :=
  ["jump_mnemonics", "mnemonics", "registers"]

/-- Why an extension was refused. -/
inductive Fault where
  | notAnObject
  | unknownKeys (keys : List Text.Loose)
  | badMnemonics
  | badNames (part : Part)
  /-- What stands in place of a name, as messages show it. -/
  | badName (part : Part) (shown : String)
  | badEntry (name : String)
  | clashes (names : List String)
  deriving DecidableEq, Repr

def Fault.message : Fault → String
  | .notAnObject => "grammar must be a JSON object"
  | .unknownKeys keys =>
    let listed := String.intercalate ", " (keys.map Text.Loose.plain)
    s!"unknown grammar key(s): {listed}"
  | .badMnemonics => "'mnemonics' must be a list or an object"
  | .badNames part => s!"'{part.key}' must be a list of names"
  | .badName part shown => s!"invalid {part.entry} name {shown}"
  | .badEntry name => s!"mnemonic '{name}' must map to a string or an object"
  | .clashes names =>
    let listed := String.intercalate ", " names
    s!"name(s) declared as both mnemonic and register: {listed}"

def Fault.hint? : Fault → Option String
  | .unknownKeys _ => some ("expected any of: " ++ String.intercalate ", " knownKeys)
  | .badName _ _ =>
    some "names must start with a letter or '_' and contain only letters, digits and '_'"
  | _ => none

/-- The fault as a refusal of the file at `path`. -/
def Fault.refusal (fault : Fault) (path : Option String) : Refusal :=
  ⟨fault.message, path, fault.hint?⟩

/-- Why there is no extended grammar. -/
inductive Rejection where
  /-- The extension is refused. -/
  | refused (fault : Fault)
  /-- A value that had to be put into words has no text. -/
  | unrendered (cause : Json.Unrendered)
  deriving DecidableEq, Repr

-- ---------------------------------------------------------------------------
-- Reading
-- ---------------------------------------------------------------------------

/-- The words that an extension lists, with names in lower case. -/
structure Extension where
  mnemonics : List Mnemonic
  registers : List String
  jumps : List String
  deriving DecidableEq, Repr

/-- The rejection of a value that is no name. -/
def rejectName (part : Part) (value : Json) : Rejection :=
  match value.render with
  | .ok shown => .refused (.badName part shown)
  | .error cause => .unrendered cause

/-- The lower-case form of a valid name. -/
def readName (part : Part) (value : Json) : Except Rejection String :=
  match value with
  | .str (.whole s) =>
    let name := Text.lowercase s
    if Literal.isTableName name then .ok name else .error (rejectName part value)
  | _ => .error (rejectName part value)

/-- The names of a list. -/
def readNameList (part : Part) : List Json → Except Rejection (List String)
  | [] => .ok []
  | value :: rest => do
    let name ← readName part value
    let names ← readNameList part rest
    return name :: names

/-- The text of an optional member of an entry. -/
def entryText (entry : Json) (key : String) : Except Json.Unrendered String :=
  match entry.get? key with
  | none => .ok ""
  | some value => value.renderPlain

/-- The mnemonic that an object with texts about it describes. -/
def readMembers (name : String) (entry : Json) : Except Json.Unrendered Mnemonic := do
  let operands ← entryText entry "operands"
  let description ← entryText entry "description"
  return ⟨name, operands, description⟩

def readEntry (name : String) : Json → Except Rejection Mnemonic
  | .str description => .ok ⟨name, "", description.plain⟩
  | .obj fields => (readMembers name (.obj fields)).mapError .unrendered
  | .null => .ok ⟨name, "", ""⟩
  | _ => .error (.refused (.badEntry name))

/-- The mnemonics of an object from names to entries. -/
def readEntries : List (Text.Loose × Json) → Except Rejection (List Mnemonic)
  | [] => .ok []
  | (key, entry) :: rest => do
    let name ← readName .mnemonics (.str key)
    let m ← readEntry name entry
    let ms ← readEntries rest
    return m :: ms

/-- The mnemonics of an extension; none when the part is absent. -/
def readMnemonics : Option Json → Except Rejection (List Mnemonic)
  | none => .ok []
  | some (.arr items) =>
    (readNameList .mnemonics items).map fun names => names.map fun name => ⟨name, "", ""⟩
  | some (.obj fields) => readEntries fields
  | some _ => .error (.refused .badMnemonics)

/-- The names of another part; none when the part is absent. -/
def readNames (part : Part) : Option Json → Except Rejection (List String)
  | none => .ok []
  | some (.arr items) => readNameList part items
  | some _ => .error (.refused (.badNames part))

/-- The keys of an object that no extension has, sorted. -/
def unknownKeys (fields : List (Text.Loose × Json)) : List Text.Loose :=
  Text.Loose.sorted ((Keyed.names fields).filter fun key => key ∉ knownKeys.map Text.Loose.whole)

def Extension.ofJson (data : Json) : Except Rejection Extension :=
  match data with
  | .obj fields =>
    if (unknownKeys fields).isEmpty then do
      let mnemonics ← readMnemonics (data.get? Part.mnemonics.key)
      let registers ← readNames .registers (data.get? Part.registers.key)
      let jumps ← readNames .jumps (data.get? Part.jumps.key)
      return ⟨mnemonics, registers, jumps⟩
    else .error (.refused (.unknownKeys (unknownKeys fields)))
  | _ => .error (.refused .notAnObject)

-- ---------------------------------------------------------------------------
-- Adding
-- ---------------------------------------------------------------------------

/-- The entry of a jump that is listed as a jump only. -/
def jumpEntry (name : String) : Mnemonic :=
  ⟨name, "label", "jump to a label"⟩

/-- The mnemonics that an extension adds to a base: those it lists, and its jumps
    that are neither listed nor known. -/
def Extension.allMnemonics (ext : Extension) (base : Grammar) : List Mnemonic :=
  let listed := ext.mnemonics.map Mnemonic.name
  ext.mnemonics ++
    (ext.jumps.filter fun name => name ∉ listed && name ∉ base.mnemonicKeys).map jumpEntry

/-- The names that would be a mnemonic and a register at once. -/
def Extension.clashes (ext : Extension) (base : Grammar) : List String :=
  let names := (ext.allMnemonics base).map Mnemonic.name
  Text.sortedNames
    (names.filter (fun name => name ∈ base.registers || name ∈ ext.registers) ++
      ext.registers.filter (· ∈ base.mnemonicKeys))

/-- The grammar with an extension added. -/
def add (base : Grammar) (ext : Extension) : Except Fault Grammar :=
  if (ext.clashes base).isEmpty then
    .ok (base.extend (ext.allMnemonics base) ext.registers ext.jumps)
  else .error (.clashes (ext.clashes base))

/-- The grammar with the extension that a JSON value describes. -/
def addJson (base : Grammar) (data : Json) : Except Rejection Grammar := do
  let ext ← Extension.ofJson data
  (base.add ext).mapError .refused

end AsmHighlight.Grammar
