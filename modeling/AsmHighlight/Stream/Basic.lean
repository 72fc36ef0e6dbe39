-- SUMMARY: Token streams: the result of highlighting a document.
import AsmHighlight.Json.Render
import AsmHighlight.Label.Table
import AsmHighlight.Log

/-!
# Token streams

A stream holds the tokens of a document in order of their place, its
diagnostics in order of presentation, and its labels. The number of diagnostics
can be capped; the stream then says how many were dropped. Tokens are never
capped.
-/

namespace AsmHighlight

/-- The result of highlighting a document. -/
structure Stream where
  /-- What the caller calls this version of the document. -/
  version : Json
  tokens : List Token
  diagnostics : List Diagnostic
  labels : Label.Table
  /-- How many diagnostics the cap has cut off. -/
  dropped : Int
  deriving DecidableEq, Repr

namespace Stream

/-- The token starts no later than the other, and ends no later if they start
    together. -/
def tokenLe (t u : Token) : Bool :=
  t.range.start.offset < u.range.start.offset ||
    (t.range.start.offset == u.range.start.offset &&
      t.range.stop.offset ≤ u.range.stop.offset)

/-- The tokens in order of their place. Tokens of the same place keep their order. -/
def sortTokens (tokens : List Token) : List Token :=
  tokens.mergeSort tokenLe

/-- The neighbours in a list that share a character. -/
def overlaps : List Token → List (Token × Token)
  | [] => []
  | [_] => []
  | t :: u :: rest =>
    if t.range.overlaps u.range then (t, u) :: overlaps (u :: rest) else overlaps (u :: rest)

/-- The first items up to a cap. A negative cap counts from the end. -/
def takeCapped (cap : Int) (items : List α) : List α :=
  items.take (if cap < 0 then items.length + cap else cap).toNat

/-- The number of items beyond a cap. -/
def beyondCap (cap : Int) (items : List α) : Int :=
  if cap < items.length then items.length - cap else 0

/-- Puts the results of the analysis into order. -/
def emit (cap : Option Int) (version : Json) (tokens : List Token)
    (diagnostics : List Diagnostic) (labels : Label.Table) : Stream :=
  let sorted := Diagnostic.sort diagnostics
  { version := version
    tokens := sortTokens tokens
    diagnostics :=
      cap.elim sorted fun n => if n < sorted.length then takeCapped n sorted else sorted
    labels := labels
    dropped := cap.elim 0 fun n => beyondCap n sorted }

/-- The record of a cap that has cut something off. -/
def droppedRecord (cap : Option Int) (s : Stream) : List Log.Record :=
  match cap with
  | some limit => if s.dropped = 0 then [] else [.dropped s.dropped limit]
  | none => []

/-- The record of the stream itself, which is lost if the version has no text. -/
def emittingRecord (s : Stream) : List Log.Record :=
  match s.version.render with
  | .ok version => [.emitting s.tokens.length s.diagnostics.length version]
  | .error _ => []

/-- The log of `emit`, which gave the stream. -/
def emitLog (cap : Option Int) (s : Stream) : List Log.Record :=
  (overlaps s.tokens).map (fun (t, u) => .overlapping t u) ++ droppedRecord cap s ++
    emittingRecord s

-- ---------------------------------------------------------------------------
-- Queries
-- ---------------------------------------------------------------------------

def errors (s : Stream) : List Diagnostic :=
  s.diagnostics.filter Diagnostic.isError

def warnings (s : Stream) : List Diagnostic :=
  s.diagnostics.filter fun d => !d.isError

def hasErrors (s : Stream) : Bool :=
  s.diagnostics.any Diagnostic.isError

def tokensOf (s : Stream) (category : Token.Category) : List Token :=
  s.tokens.filter fun t => t.category = category

/-- The first token in a list that covers an offset. The search ends at a token that
    starts beyond it. -/
def findAt (offset : Int) : List Token → Option Token
  | [] => none
  | t :: rest =>
    if t.range.covers offset then some t
    else if offset < t.range.start.offset then none
    else findAt offset rest

def tokenAt (s : Stream) (offset : Int) : Option Token :=
  findAt offset s.tokens

def toJson (s : Stream) : Json :=
  .object [("version", s.version), ("tokens", .arr (s.tokens.map Token.toJson)),
    ("diagnostics", .arr (s.diagnostics.map Diagnostic.toJson)),
    ("labels", s.labels.toJson), ("dropped_diagnostics", .int s.dropped)]

end Stream

end AsmHighlight
