import IdlLinker.Diagnostic.Limit
import IdlLinker.Load.Nodes

/-!
# What loading collects

Each stage of loading collects diagnostics, and the first stage that finds any
ends the loading.  What is reported are these, within a limit: all of them if
they are few enough, and otherwise the first ones and a warning that counts the
others.
-/

namespace IdlLinker.Load

/-- The number that a limit is used as: the default where none that is finite is
given, and otherwise the given one rounded down, or one if that is less. -/
def limitNumber (limit : Option Number) (default : Nat) : Number :=
  match limit with
  | some (.finite value) => .ofInt (max 1 value.floor)
  | _ => .ofNat default

/-- What is found of a text that is too long. -/
def tooLongFound (text : String) (maxInputBytes : Option Number) : List Diagnostic :=
  let limit := settleLimit maxInputBytes defaultMaxInputBytes
  if limit < text.utf8ByteSize then [tooLong text.utf8ByteSize limit] else []

/-- The faults of a text as a YAML document. -/
def faultsFound (document : Yaml.Parsed) : List Diagnostic := document.errors.map faultDiagnostic

/-- The aliases of a document that are not hidden. -/
def aliasesFound (document : Yaml.Parsed) : List Diagnostic :=
  match document.content with
  | some content => (located document "document" content).notes
  | none => []

/-- The ways in which data has not the shape of a document. -/
def issuesFound (data : Value) : List Diagnostic :=
  (Written.checkDocument (some data)).issues.map (shapeDiagnostic data)

/-- The texts in the data of a document that are no types. -/
def typesFound (data : Value) : List Diagnostic :=
  match (Written.checkDocument (some data)).value? with
  | some document => document.read.notes
  | none => []

/-- What is found by the first stage that finds anything. -/
def firstFound (stages : List (List Diagnostic)) : List Diagnostic :=
  (stages.find? fun found => !found.isEmpty).getD []

/-- What loading a text collects. -/
def collected (read : Yaml.Reader) (text : String) (maxInputBytes : Option Number) :
    List Diagnostic :=
  firstFound [tooLongFound text maxInputBytes, faultsFound (read text), aliasesFound (read text),
    issuesFound (sourceData (read text)), typesFound (sourceData (read text))]

/-- An outcome accounts for all that was found: there are definitions exactly if
it was nothing, and within the limit, which is never refused, either each distinct
diagnostic is reported or the first ones are, with a warning in the last place
that tells the number of the others. -/
structure Accounts (found : List Diagnostic) (maxDiagnostics : Option Number)
    (outcome : Outcome) (limit : Nat) : Prop where
  normalized : limitNumber maxDiagnostics defaultMaxDiagnostics = .ofNat limit
  rejected : outcome.definitions = none ↔ found ≠ []
  settled : Diagnostic.settleWithin found (.ofNat limit) = .ok outcome.diagnostics
  bounded : outcome.diagnostics.length ≤ limit
  whole : (Diagnostic.dedupe found).length ≤ limit →
    outcome.diagnostics = Diagnostic.dedupe found
  cut : limit < (Diagnostic.dedupe found).length → ∃ count, 2 ≤ count ∧
    limit - 1 + count = (Diagnostic.dedupe found).length ∧
      outcome.diagnostics =
        (Diagnostic.dedupe found).take (limit - 1) ++ [Diagnostic.truncated count]

end IdlLinker.Load
