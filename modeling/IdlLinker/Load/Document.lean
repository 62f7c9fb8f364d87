import IdlLinker.Load.Located
import IdlLinker.Written.Meaning

/-!
# Loading parsed documents

A text becomes definitions in stages: it is read as YAML, its data is located,
checked against the shape of documents, and its types are read.  The first
stage that finds an error ends the loading with the diagnostics of that stage.
Whatever reads YAML is a parameter: loading goes by the parsed document.
-/

namespace IdlLinker

namespace Load

open Value (lineKey)

/-- The most bytes a document may have unless another limit is given. -/
def defaultMaxInputBytes : Nat := 1024 * 1024

/-- The most diagnostics there may be unless another limit is given. -/
def defaultMaxDiagnostics : Nat := 100

/-- Limits on a load, as they are given. -/
structure Limits where
  maxInputBytes : Option Number := none
  maxDiagnostics : Option Number := none

/-- A limit as it is used: a whole number that is at least one, and the default
where none or none that is finite is given. -/
def settleLimit (limit : Option Number) (default : Nat) : Nat :=
  match limit with
  | some (.finite value) => max 1 value.floor.toNat
  | _ => default

/-- What loading gives: definitions unless there is an error, and the
diagnostics. -/
structure Outcome where
  definitions : Option (List Definition)
  diagnostics : List Diagnostic

/-- The report of a text that is too long. -/
def tooLong (bytes limit : Nat) : Diagnostic where
  code := "IDL_DOC_MAX_INPUT_BYTES_EXCEEDED"
  path := "document"
  severity := .error
  message :=
    "Input exceeds maxInputBytes (" ++ toString bytes ++ " > " ++ toString limit ++ ")."
  suggestion := some "Split the document or increase maxInputBytes."

/-- The report of an error in the text. -/
def faultDiagnostic (error : Yaml.ReadError) : Diagnostic where
  code := "IDL_DOC_YAML_PARSE_ERROR"
  path := "document"
  severity := .error
  message := error.message
  line := error.line

/-- The line a record holds. -/
def ownLine? (value : Value) : Option Number :=
  match value.get? lineKey with
  | some (.number line) => some line
  | _ => none

/-- The part of a piece of data that a step leads to. -/
def partAt? (value : Value) : PathStep → Option Value
  | .key name => value.get? name
  | .index position => value.item? position

/-- The line of the innermost record with a line on a path, or else the line
given. -/
def nearestLine (line : Option Number) (value : Value) : List PathStep → Option Number
  | [] => (ownLine? value).or line
  | step :: rest =>
    let line := (ownLine? value).or line
    match partAt? value step with
    | some part => nearestLine line part rest
    | none => line

/-- The report of data of the wrong shape. -/
def shapeDiagnostic (data : Value) (issue : Issue) : Diagnostic where
  code := "IDL_DOC_SCHEMA_INVALID"
  path := ".".intercalate ("document" :: issue.path.map PathStep.text)
  severity := .error
  message := issue.flaw.message
  line := nearestLine none data issue.path

/-- What a stage without a result gives. -/
def rejected (limit : Nat) (diagnostics : List Diagnostic) : Outcome where
  definitions := none
  diagnostics := Diagnostic.settle diagnostics limit

/-- The data of a document without content. -/
def blankData : Value := .record [(lineKey, .number (.ofNat 1))]

/-- Load located data. -/
def loadData (limit : Nat) (data : Value) : Outcome :=
  let verdict := Written.checkDocument (some data)
  match verdict.value?, verdict.issues with
  | some document, [] =>
    let read := document.read
    { definitions := if Diagnostic.hasErrors read.notes then none else some read.value
      diagnostics := Diagnostic.settle read.notes limit }
  | _, issues => rejected limit (issues.map (shapeDiagnostic data))

/-- Load a parsed document. -/
def loadParsed (limit : Nat) (document : Yaml.Parsed) : Outcome :=
  match document.errors with
  | [] =>
    match document.content with
    | none => loadData limit blankData
    | some content =>
      let data := located document "document" content
      if Diagnostic.hasErrors data.notes then rejected limit data.notes
      else loadData limit data.value
  | errors => rejected limit (errors.map faultDiagnostic)

/-- Load a text with what reads YAML. -/
def loadWith (read : Yaml.Reader) (text : String) (limits : Limits := {}) : Outcome :=
  let maxInputBytes := settleLimit limits.maxInputBytes defaultMaxInputBytes
  let maxDiagnostics := settleLimit limits.maxDiagnostics defaultMaxDiagnostics
  if maxInputBytes < text.utf8ByteSize then
    { definitions := none, diagnostics := [tooLong text.utf8ByteSize maxInputBytes] }
  else loadParsed maxDiagnostics (read text)

end Load

end IdlLinker
