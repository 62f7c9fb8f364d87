import IdlLinker.Number.Shortest

/-!
# Diagnostics

What loading a document reports.  Diagnostics are compared by one joined key,
duplicates after the first are dropped, and a list is cut to a limit.
-/

namespace IdlLinker

/-- How bad a diagnostic is. -/
inductive Severity
  | error
  | warning
  deriving DecidableEq, Repr

/-- The word for a severity. -/
def Severity.word : Severity → String
  | .error => "error"
  | .warning => "warning"

/-- One report about a document. -/
structure Diagnostic where
  code : String
  path : String
  severity : Severity
  message : String
  line : Option Number := none
  suggestion : Option String := none
  deriving DecidableEq

namespace Diagnostic

/-- At least one diagnostic is an error. -/
def hasErrors (diagnostics : List Diagnostic) : Bool :=
  diagnostics.any fun diagnostic => diagnostic.severity == .error

/-- Code, path, severity, message and line, joined by unit separators. -/
def key (diagnostic : Diagnostic) : String :=
  "\x1f".intercalate
    [diagnostic.code, diagnostic.path, diagnostic.severity.word,
     diagnostic.message, (diagnostic.line.map Number.text).getD ""]

/-- The diagnostics whose keys are neither seen before nor repeated. -/
def dedupeAfter (seen : List String) : List Diagnostic → List Diagnostic
  | [] => []
  | diagnostic :: rest =>
    if diagnostic.key ∈ seen then dedupeAfter seen rest
    else diagnostic :: dedupeAfter (diagnostic.key :: seen) rest

/-- Keep the first diagnostic of every key. -/
def dedupe (diagnostics : List Diagnostic) : List Diagnostic :=
  dedupeAfter [] diagnostics

/-- A limit that is not a whole number of diagnostics. -/
inductive LimitFault
  | notACount
  deriving DecidableEq, Repr

/-- What a refused limit says. -/
def LimitFault.message : LimitFault → String
  | .notACount => "maxDiagnosticCount must be an integer >= 0."

/-- The first diagnostics up to a limit, which must be an integer not below
zero. -/
def cap (diagnostics : List Diagnostic) (limit : Number) :
    Except LimitFault (List Diagnostic) :=
  match limit.toInt? with
  | some (.ofNat count) => .ok (diagnostics.take count)
  | _ => .error .notACount

/-- The warning that stands for diagnostics left out. -/
def truncated (count : Nat) : Diagnostic where
  code := "IDL_DOC_DIAGNOSTICS_TRUNCATED"
  path := "document"
  severity := .warning
  message :=
    "Diagnostic limit reached; " ++ toString count ++
      " additional diagnostic(s) were truncated."

/-- Distinct diagnostics, no more than a limit.  When there are more, the last
place goes to a warning that counts the ones left out. -/
def settle (diagnostics : List Diagnostic) (limit : Nat) : List Diagnostic :=
  let distinct := dedupe diagnostics
  if distinct.length ≤ limit then distinct
  else
    let kept := distinct.take (limit - 1)
    kept ++ [truncated (distinct.length - kept.length)]

end Diagnostic

end IdlLinker
