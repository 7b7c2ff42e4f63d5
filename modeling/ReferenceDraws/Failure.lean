import ReferenceDraws.Json.Decode

/-!
# Failures

What every operation reports when it fails: a family, a stable code, a message, the circumstances
as a sorted map, and at times a hint. A failure has a one-line text and a JSON form, from
which it can be read again.
-/

namespace ReferenceDraws

/-- What is known of a failure. -/
structure Report where
  /-- A stable code for machines. -/
  code : String
  /-- What went wrong, for people. -/
  message : String
  /-- The names, shapes and paths involved. -/
  context : SortedMap String
  /-- What may help. -/
  hint : Option String
deriving DecidableEq

namespace Report

/-- A report without context and hint. -/
def new (code message : String) : Report := ⟨code, message, .empty, none⟩

/-- Adds a circumstance, or replaces its value. -/
def withContext (r : Report) (key value : String) : Report :=
  { r with context := r.context.insert key value }

/-- Sets the hint. -/
def withHint (r : Report) (hint : String) : Report := { r with hint := some hint }

/-- A report with several circumstances. -/
def of (code message : String) (context : List (String × String)) : Report :=
  ⟨code, message, .ofList context, none⟩

/-- The one-line text of a report. -/
def display (r : Report) : String :=
  let context :=
    if r.context.isEmpty then ""
    else " | context: [" ++
      ", ".intercalate (r.context.entries.map fun e => e.1 ++ "=" ++ e.2) ++ "]"
  let hint :=
    match r.hint with
    | some hint => " | hint: " ++ hint
    | none => ""
  r.message ++ " (code: " ++ r.code ++ ")" ++ context ++ hint

/-- The members of a report that is written; a missing hint has none. -/
def members (r : Report) : List (String × Json) :=
  [("code", .string r.code), ("message", .string r.message),
    ("context", .ofSortedMap .string r.context)] ++
    match r.hint with
    | some hint => [("hint", .string hint)]
    | none => []

/-- A report as a value. -/
def toJson (r : Report) : Json := .object r.members

/-- How a report is read. -/
def record : Json.RecordDecoder Report :=
  (Json.RecordDecoder.map Report.mk (.required "code" Json.Decoder.string))
    |>.and (.required "message" Json.Decoder.string)
    |>.and (.defaulted "context" .empty (Json.Decoder.sortedMap Json.Decoder.string))
    |>.and (.optional "hint" Json.Decoder.string)

/-- The name that messages use for a report. -/
def recordName : String := "ErrorInfo"

/-- Reads a report. -/
def decode : Json.Decoder Report := record.read recordName

end Report

/-- The families of failures. -/
inductive Family where
  /-- A parameter name does not follow the grammar of names. -/
  | malformedParameterName
  /-- Draws do not have the shape that the run's configuration asks for. -/
  | shapeMismatch
  /-- A requested variable has no draws. -/
  | missingVariable
  /-- An artifact could not be written. -/
  | artifactWrite
  /-- The configuration is invalid or cannot be read. -/
  | config
  /-- An input cannot be read. -/
  | input
deriving DecidableEq

namespace Family

/-- The name of a family in documents. -/
def name : Family → String
  | .malformedParameterName => "MalformedParameterName"
  | .shapeMismatch => "ShapeMismatch"
  | .missingVariable => "MissingVariable"
  | .artifactWrite => "ArtifactWrite"
  | .config => "Config"
  | .input => "Input"

/-- What a family calls its failures. -/
def title : Family → String
  | .malformedParameterName => "malformed parameter name"
  | .shapeMismatch => "shape mismatch"
  | .missingVariable => "missing variable"
  | .artifactWrite => "artifact write failure"
  | .config => "config error"
  | .input => "input error"

/-- Every family. -/
def all : List Family :=
  [.malformedParameterName, .shapeMismatch, .missingVariable, .artifactWrite, .config, .input]

/-- The families by name. -/
def cases : List (String × Family) := all.map fun f => (f.name, f)

/-- Reads a family. -/
def decode : Json.Decoder Family := Json.Decoder.case cases

/-- Reads a family that stands in a list before its report, where only its name is taken. -/
def decodeName : Json.Decoder Family := Json.Decoder.caseName cases

end Family

/-- A failure: a report in a family. -/
structure Failure where
  /-- Its family. -/
  family : Family
  /-- What is known of it. -/
  report : Report
deriving DecidableEq

namespace Failure

/-- The one-line text of a failure. -/
def display (f : Failure) : String := f.family.title ++ ": " ++ f.report.display

/-- Whether the sampler's output broke the layout of names or shapes that is assumed of it. -/
def isContractViolation (f : Failure) : Bool :=
  f.family = .malformedParameterName || f.family = .shapeMismatch

/-- Adds a circumstance to a failure of one family and leaves the others as they are. -/
def addContextIf (family : Family) (key value : String) (f : Failure) : Failure :=
  if f.family = family then { f with report := f.report.withContext key value } else f

/-- A failure as a value: its family beside its report. -/
def toJson (f : Failure) : Json :=
  .object [("family", .string f.family.name), ("detail", f.report.toJson)]

/-! ## Reading a failure -/

/-- The name that messages use for a failure. -/
def typeName : String := "PdbError"

/-- The fault of a field that is there twice. -/
def duplicate (name : String) : Json.Fault := .mismatch (.duplicateField name)

/-- The next member that is the family or the report, after skipping all others. -/
def nextPart (closed : Bool) : List (Option String × Json.Reading) →
    Except Json.Fault (Option (String × Json.Reading × List (Option String × Json.Reading)))
  | [] => if closed then .ok none else .error .malformed
  | (k, r) :: rest => do
    let k ← Json.Decoder.key k
    if k = "family" ∨ k = "detail" then pure (some (k, r, rest))
    else
      Json.Decoder.skip r
      nextPart closed rest

/-- Whether no further family or report follows. -/
def noMoreParts (closed : Bool) (ms : List (Option String × Json.Reading)) :
    Except Json.Fault Unit := do
  match ← nextPart closed ms with
  | some (k, _, _) => throw (duplicate k)
  | none => pure ()

/-- Reads a failure from an object whose family and report may stand in either order, or from an
array of the two. A report that comes first is kept whole until its family is known. -/
def decode : Json.Decoder Failure
  | .object ms closed => do
    match ← nextPart closed ms with
    | none => throw (.mismatch (.missingField "family"))
    | some (first, r, rest) =>
      if first = "family" then
        let family ← Family.decode r
        match ← nextPart closed rest with
        | none => throw (.mismatch (.missingField "detail"))
        | some (second, r, rest) =>
          if second = "family" then throw (duplicate "family")
          let report ← Report.decode r
          noMoreParts closed rest
          pure ⟨family, report⟩
      else
        let content ← Json.Decoder.whole (Json.Decoder.maxDepth - 1) r
        match ← nextPart closed rest with
        | none => throw (.mismatch (.missingField "family"))
        | some (second, r, rest) =>
          if second = "detail" then throw (duplicate "detail")
          let family ← Family.decode r
          let report ← Report.record.readWhole Report.recordName content
          noMoreParts closed rest
          pure ⟨family, report⟩
  | .array [] true => .error (.mismatch (.wrongLength 0 (.taggedCase typeName)))
  | .array [] false => .error .malformed
  | .array (tag :: more) closed => do
    let family ← Family.decodeName tag
    match more with
    | [] =>
      if closed then throw (.mismatch (.wrongLength 1 (.taggedCase typeName)))
      else throw .malformed
    | r :: more =>
      let report ← Report.decode r
      if closed && more.isEmpty then pure ⟨family, report⟩ else throw .malformed
  | r => .error (Json.Decoder.wrongKind (.taggedCase typeName) r)

end Failure

end ReferenceDraws
