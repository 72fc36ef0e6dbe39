-- SUMMARY: Running the commands.
import AsmHighlight.Command.Invocation
import AsmHighlight.Command.Outcome
import AsmHighlight.Diagnostic.Report
import AsmHighlight.Grammar.Load
import AsmHighlight.Highlighter.File
import AsmHighlight.Json.Printer
import AsmHighlight.Token.Listing

/-!
# Running commands

`run` carries out a command line on a snapshot of the files and the
environment. The highlighter is made once, when the first document needs it:
`tokens`, `labels` and `grammar` make it before they read a file, and `check`
after it has read the first one.
-/

namespace AsmHighlight.Command

def programName : String := "lasmtok"

def programVersion : String := "0.3.0"

/-- What a command works with. -/
structure Session where
  tree : File.Tree
  environment : List (String × String)
  verbose : Bool
  grammar : Option String

namespace Session

/-- The highlighter for a grammar and the settings of the environment. -/
def withSettings (s : Session) (grammar : Grammar) : Except Failure Highlighter :=
  match (Settings.read s.environment).bind Settings.validate with
  | .error fault => .error (.settings fault.refusal)
  | .ok policy => .ok ⟨grammar, policy⟩

/-- Makes the highlighter: the grammar first, and then the settings. -/
def prepare (s : Session) : Logged Failure Highlighter :=
  match s.grammar with
  | none => ⟨[], s.withSettings .builtin⟩
  | some path =>
    let loaded := Grammar.builtin.load s.tree path
    match loaded.result with
    | .error failure => ⟨loaded.log, .error failure⟩
    | .ok grammar =>
      ⟨loaded.log ++ [.loadedGrammar (File.normalize path)], s.withSettings grammar⟩

/-- Goes on with the result of an activity after printing its log, or ends. -/
def proceed (s : Session) (t : Transcript) (activity : Logged Failure α)
    (next : Transcript → α → Outcome) : Outcome :=
  let t := t.log s.verbose activity.log
  match activity.result with
  | .error failure => t.fail s.verbose failure
  | .ok value => next t value

/-- Highlights the only file of a command. -/
def onFile (s : Session) (file : String) (next : Transcript → Stream → Outcome) : Outcome :=
  s.proceed {} s.prepare fun t h => s.proceed t (h.highlightFile s.tree file) next

-- ---------------------------------------------------------------------------
-- Tokens
-- ---------------------------------------------------------------------------

/-- Prints tokens one by one, up to one that cannot be shown. -/
def listTokens (t : Transcript) : List Token → Outcome
  | [] => ⟨t, .exit success⟩
  | token :: rest =>
    match token.listing with
    | .ok line => listTokens (t.echo line) rest
    | .error fault => ⟨t, .escaped fault⟩

def printJson (t : Transcript) (value : Json) (status : Nat) : Outcome :=
  match value.indented with
  | .ok text => ⟨t.echo text, .exit status⟩
  | .error cause => ⟨t, .escaped (.overlong cause)⟩

def shownTokens (noComments : Bool) (stream : Stream) : List Token :=
  stream.tokens.filter fun t => !(noComments && t.category == .comment)

def tokens (s : Session) (file : String) (format : Format) (noComments : Bool) : Outcome :=
  s.onFile file fun t stream =>
    let shown := shownTokens noComments stream
    match format with
    | .text => listTokens t shown
    | .json => printJson t ({ stream with tokens := shown }).toJson success

-- ---------------------------------------------------------------------------
-- Check
-- ---------------------------------------------------------------------------

/-- A check under way. -/
structure Progress where
  transcript : Transcript
  ready : Option Highlighter
  failed : Bool
  results : List (String × Json)

/-- The document counts as failed. -/
def isFailure (strict : Bool) (stream : Stream) : Bool :=
  stream.hasErrors || (strict && !stream.diagnostics.isEmpty)

/-- Prints the diagnostics of a document. -/
def printReport (s : Session) (t : Transcript) (file source : String) (stream : Stream) :
    Transcript :=
  if !stream.diagnostics.isEmpty then
    let t := t.echo (Diagnostic.report stream.diagnostics (some source) file)
    if stream.dropped = 0 then t else t.echo s!"({stream.dropped} more not shown)"
  else if s.verbose then t.echo s!"{file}: ok"
  else t

/-- Adds the results for a document. -/
def progress (s : Session) (format : Format) (strict : Bool) (file source : String)
    (h : Highlighter) (p : Progress) (t : Transcript) (stream : Stream) : Progress where
  transcript :=
    match format with
    | .text => s.printReport t file source stream
    | .json => t
  ready := some h
  failed := p.failed || isFailure strict stream
  results :=
    match format with
    | .text => p.results
    | .json => Keyed.put p.results file (.arr (stream.diagnostics.map Diagnostic.toJson))

def finishCheck (format : Format) (p : Progress) : Outcome :=
  let status := if p.failed then found else success
  match format with
  | .text => ⟨p.transcript, .exit status⟩
  | .json => printJson p.transcript (.object p.results) status

/-- The highlighter of a check, made now unless it is ready. -/
def highlighterFor (s : Session) (p : Progress) : Logged Failure Highlighter :=
  match p.ready with
  | some h => ⟨[], .ok h⟩
  | none => s.prepare

/-- Checks documents one after the other. -/
def checkFrom (s : Session) (format : Format) (strict : Bool) (p : Progress) :
    List String → Outcome
  | [] => finishCheck format p
  | path :: rest =>
    let file := File.normalize path
    match Highlighter.readSource s.tree .utf8 file with
    | .error failure => p.transcript.fail s.verbose failure
    | .ok source =>
      s.proceed p.transcript (s.highlighterFor p) fun t h =>
        let run := h.run source (.str file)
        s.proceed t ⟨run.log, run.result.mapError .token⟩ fun t stream =>
          s.checkFrom format strict (s.progress format strict file source h p t stream) rest

/-- Reports the diagnostics of files. -/
def check (s : Session) (files : List String) (format : Format) (strict : Bool) : Outcome :=
  s.checkFrom format strict ⟨{}, none, false, []⟩ files

-- ---------------------------------------------------------------------------
-- Labels
-- ---------------------------------------------------------------------------

/-- The number of references that is counted for a name. -/
def countOf (counts : List (String × Nat)) (name : String) : Nat :=
  (Keyed.get? counts name).getD 0

/-- Counts the resolved references among the tokens under the name that each carries. -/
def countFrom (counts : List (String × Nat)) :
    List Token → Except Token.Fault (List (String × Nat))
  | [] => .ok counts
  | t :: rest =>
    if t.isResolved then do
      let name ← Token.require "name" t.name?
      countFrom (Keyed.put counts name (countOf counts name + 1)) rest
    else countFrom counts rest

/-- The number of resolved references to each label that has any. -/
def countReferences (stream : Stream) : Except Token.Fault (List (String × Nat)) :=
  countFrom [] (stream.tokensOf .labelReference)

/-- A label with its line and number of references. -/
def labelLine (label : Label) (count : Nat) : String :=
  let name := Text.padRight 24 label.name
  let line := Text.padRight 5 (Decimal.text label.range.start.line)
  s!"{name} line {line} {count} reference{Text.plural count}"

/-- Prints the labels of a document. -/
def listLabels (t : Transcript) (stream : Stream) : Outcome :=
  if stream.labels.isEmpty then ⟨t.echo "No labels declared.", .exit success⟩
  else
    match countReferences stream with
    | .ok counts =>
      let lines := stream.labels.map fun label => labelLine label (countOf counts label.name)
      ⟨lines.foldl Transcript.echo t, .exit success⟩
    | .error fault => ⟨t, .escaped fault⟩

def labels (s : Session) (file : String) : Outcome :=
  s.onFile file listLabels

-- ---------------------------------------------------------------------------
-- Grammar
-- ---------------------------------------------------------------------------

/-- A mnemonic with its operands and description. -/
def mnemonicLine (g : Grammar) (key : String) : String :=
  let entry := (Keyed.get? g.mnemonics key).getD ⟨key, "", ""⟩
  let name := Text.padRight 8 key
  let operands := Text.padRight 28 entry.operands
  Text.trimRight s!"  {name} {operands} {entry.description}"

/-- A directive with its operand. -/
def directiveLine (d : Directive) : String :=
  let name := Text.padRight 7 d.name
  match d.operand with
  | .text => s!"  #{name} {d.literalKind.name}"
  | .unsigned bits => s!"  #{name} {bits}-bit unsigned {d.literalKind.name}"

def grammarLines (g : Grammar) : List String :=
  "Mnemonics:" :: (Text.sortedNames g.mnemonicKeys).map (mnemonicLine g) ++
    ["\nRegisters:", "  " ++ String.intercalate " " (Text.sortedNames g.registers),
     "\nDirectives:"] ++ g.directives.map directiveLine

def showGrammar (s : Session) : Outcome :=
  s.proceed {} s.prepare fun t h =>
    ⟨(grammarLines h.grammar).foldl Transcript.echo t, .exit success⟩

def perform (s : Session) : Action → Outcome
  | .tokens file format noComments => s.tokens file format noComments
  | .check files format strict => s.check files format strict
  | .labels file => s.labels file
  | .grammar => s.showGrammar

end Session

/-- Carries out a command line. -/
def run (tree : File.Tree) (environment : List (String × String)) (arguments : List String) :
    Outcome :=
  match readInvocation tree arguments with
  | .error error => ⟨{}, .usage error⟩
  | .ok .help => ⟨{}, .exit success⟩
  | .ok .version =>
    ⟨({} : Transcript).echo s!"{programName}, version {programVersion}", .exit success⟩
  | .ok (.run verbose grammar action) =>
    Session.perform ⟨tree, environment, verbose, grammar⟩ action

end AsmHighlight.Command
