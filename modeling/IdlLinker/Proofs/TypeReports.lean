import IdlLinker.Proofs.Aliases
import IdlLinker.Proofs.Positions

/-!
# Malformed types are reported

The nodes of a text have types in some places.  When the text has no other
fault, what is reported are the places whose text is no type, each once and in
order, and there are definitions just when there is no such place.
-/

namespace IdlLinker.Load

open Shape
open Written (TypePosition)
open Written.TypePosition (inEach)
open Value (lineKey)
open Yaml (Node Parsed Reader)

/-! ## Places in nodes -/

section Places

variable (document : Parsed)

/-- The place of a type under a key of a mapping, and the line of the mapping. -/
def typeUnder (key : String) (node : Node) : List TypePosition :=
  match document.text? node key, nodeLine? document node with
  | some expression, some line => [⟨[.key key], expression, line⟩]
  | _, _ => []

/-- The places of types in a function: what it returns, its arguments, and what
it throws. -/
def functionPositions (node : Node) : List TypePosition :=
  typeUnder document "returns" node ++
    inEach "args" (typeUnder document "type") (document.parts node "args") ++
      inEach "throws" (typeUnder document "type") (document.parts node "throws")

/-- The places of types in a definition. -/
def definitionPositions (node : Node) : List TypePosition :=
  match document.text? node "kind" with
  | some "typedef" => typeUnder document "type" node
  | some "enum" => []
  | some "service" =>
    inEach "functions" (functionPositions document) (document.parts node "functions")
  | _ => inEach "fields" (typeUnder document "type") (document.parts node "fields")

/-- The places of types in a document, in the order of its definitions. -/
def typePositions : List TypePosition :=
  inEach "definitions" (definitionPositions document) (definitionNodes document)

end Places

/-! ## Places in what is accepted -/

theorem inEach_eq_of_forall₂ {α β : Type} {key : String} {positions : α → List TypePosition}
    {others : β → List TypePosition} {items : List α} {results : List β}
    (each : List.Forall₂ (fun item result => positions item = others result) items results) :
    inEach key positions items = inEach key others results := by
  have onward (start : Nat) :
      ((items.zipIdx start).flatMap fun entry =>
          (positions entry.1).map (TypePosition.under [.key key, .index entry.2])) =
        (results.zipIdx start).flatMap fun entry =>
          (others entry.1).map (TypePosition.under [.key key, .index entry.2]) := by
    induction each generalizing start with
    | nil => rfl
    | cons here _ hypothesis =>
        simp only [List.zipIdx_cons, List.flatMap_cons, here, hypothesis]
  exact onward 0

variable {document : Parsed} {path : String} {position : Nat} {item node : Node}
  {entries : List (String × Value)}

theorem typeUnder_eq {key expression : String} {line : Number}
    (given : document.text? node key = some expression)
    (lined : nodeLine? document node = some line) :
    typeUnder document key node = [⟨[.key key], expression, line⟩] := by
  rw [typeUnder, given, lined]

theorem typeUnder_of_checkField {field : Written.Field}
    (accepted : Written.checkField (some (itemData document path position item)) = .valid field) :
    typeUnder document "type" item = field.typePositions := by
  rcases Written.checkField_eq_valid_iff.mp accepted with ⟨entries, same, _, _, _, type, _, _, line⟩
  have typed := (typeText_eq_valid_iff.mp type).1
  have record := recorded_of_get? (Option.some.inj same) (ne_none_of_line line) "type" (by decide)
    (by rw [typed]; exact nofun)
  exact typeUnder_eq (text?_of_get? record (by decide) typed) (nodeLine?_of_line record line)

/-- Fields that are accepted have their types where the items of the mapping
do. -/
theorem inEach_of_checkFields {key : String} {fields : List Written.Field}
    (record : Recorded document path node entries)
    (ordinary : key ≠ lineKey ∧ key ≠ defaultKey)
    (accepted : withDefault [] (list Written.checkField) (Record.get? entries key) =
      .valid fields) :
    inEach key (typeUnder document "type") (document.parts node key) =
      inEach key Written.Field.typePositions fields :=
  inEach_eq_of_forall₂ ((forall₂_of_list record ordinary accepted).imp
    fun _ _ valid => typeUnder_of_checkField valid.choose_spec)

theorem functionPositions_of_checkFunction {function : Written.Function}
    (functions : isItemsPath path = false)
    (accepted : Written.checkFunction (some (itemData document path position item)) =
      .valid function) :
    functionPositions document item = function.typePositions := by
  rcases Written.checkFunction_eq_valid_iff.mp accepted with
    ⟨entries, same, _, _, returns, _, args, throws, line⟩
  have record := (record_cases (Option.some.inj same) (ne_none_of_line line)).resolve_right
    (by simp [functions])
  have lined := nodeLine?_of_line record line
  have returned := text?_of_optional eq_text_of_typeText record (by decide) returns
  have type : typeUnder document "returns" item = function.returns.toList.map fun expression =>
      ⟨[.key "returns"], expression, function.line⟩ := by
    rw [typeUnder, returned, lined]
    cases function.returns <;> rfl
  rw [functionPositions, Written.Function.typePositions, type,
    inEach_of_checkFields record (by decide) args, inEach_of_checkFields record (by decide) throws]

theorem definitionPositions_of_checkDefinition {definition : Written.Definition}
    (accepted : Written.checkDefinition
      (some (itemData document (pathOf "document" "definitions") position item)) =
        .valid definition) :
    definitionPositions document item = definition.typePositions := by
  rcases exists_recorded_of_check accepted with
    ⟨entries, kind, _, record, found, selected, valid⟩
  have kinded := text?_of_get? record (by decide) found
  rcases Written.check_of_kind selected with
    ⟨structKind, rfl, rfl⟩ | ⟨rfl, rfl⟩ | ⟨rfl, rfl⟩ | ⟨rfl, rfl⟩
  · rcases Verdict.map_eq_valid_iff.mp valid with ⟨body, isStruct, rfl⟩
    rcases Written.checkStruct_eq_valid_iff.mp isStruct with ⟨_, own, _, _, _, fields, _⟩
    cases own
    rw [definitionPositions, kinded]
    have positions := inEach_of_checkFields record (by decide) fields
    cases structKind <;> exact positions
  · rcases Verdict.map_eq_valid_iff.mp valid with ⟨body, isTypedef, rfl⟩
    rcases Written.checkTypedef_eq_valid_iff.mp isTypedef with ⟨_, own, _, _, _, type, line⟩
    cases own
    rw [definitionPositions, kinded]
    exact typeUnder_eq (text?_of_get? record (by decide) (typeText_eq_valid_iff.mp type).1)
      (nodeLine?_of_line record line)
  · rcases Verdict.map_eq_valid_iff.mp valid with ⟨body, isEnum, rfl⟩
    rw [definitionPositions, kinded]
    rfl
  · rcases Verdict.map_eq_valid_iff.mp valid with ⟨body, isService, rfl⟩
    rcases Written.checkService_eq_valid_iff.mp isService with ⟨_, own, _, _, _, _, functions, _⟩
    cases own
    have notItems := isItemsPath_part position (show '.' ∉ "functions".toList by decide)
    rw [definitionPositions, kinded]
    exact inEach_eq_of_forall₂ ((forall₂_of_list record (by decide) functions).imp
      fun _ _ valid => functionPositions_of_checkFunction notItems valid.choose_spec)

/-- The places in what is accepted are those of its document. -/
theorem typePositions_of_checkDocument {written : Written.Document}
    (accepted : Written.checkDocument (some (sourceData document)) = .valid written) :
    typePositions document = written.typePositions := by
  rcases Written.checkDocument_eq_valid_iff.mp accepted with ⟨entries, same, _, each, line⟩
  cases given : document.content with
  | some content =>
      have record := recorded_root given same line
      rw [typePositions, definitionNodes, given]
      exact inEach_eq_of_forall₂ ((forall₂_of_list record (by decide) each).imp
        fun _ _ valid => definitionPositions_of_checkDefinition valid.choose_spec)
  | none =>
      rw [typePositions, definitionNodes, given]
      rw [sourceData, given] at same
      cases Option.some.inj same
      rcases withDefault_eq_valid_iff.mp each with ⟨_, empty⟩ | ⟨data, found, _⟩
      · rw [Written.Document.typePositions, empty]
        rfl
      · cases found

/-! ## Texts without another fault -/

/-- A text is read without an error, all its aliases are hidden, and its data has
the shape of a document. -/
structure Passes (read : Reader) (text : String) (limits : Limits) : Prop where
  short : text.utf8ByteSize ≤ settleLimit limits.maxInputBytes defaultMaxInputBytes
  clean : (read text).errors = []
  unaliased : ∀ use ∈ documentAliases (read text), use.hidden = true
  shaped : (Written.checkDocument (some (sourceData (read text)))).isValid = true

variable {read : Reader} {text : String} {limits : Limits}

/-- A text without aliases that are refused is loaded from its data. -/
theorem load_of_unaliased
    (short : text.utf8ByteSize ≤ settleLimit limits.maxInputBytes defaultMaxInputBytes)
    (clean : (read text).errors = [])
    (unaliased : ∀ use ∈ documentAliases (read text), use.hidden = true) :
    loadWith read text limits =
      loadData (settleLimit limits.maxDiagnostics defaultMaxDiagnostics)
        (sourceData (read text)) := by
  unfold documentAliases at unaliased
  unfold sourceData
  cases given : (read text).content with
  | some content =>
      rw [given] at unaliased
      have none : exposed (aliases (read text) "document" false content) = [] := by
        refine List.eq_nil_iff_forall_not_mem.mpr fun use member => ?_
        rcases mem_exposed_iff.mp member with ⟨among, apart⟩
        rw [unaliased use among] at apart
        cases apart
      have noted := notes_located (read text) "document" content
      rw [none, List.map_nil] at noted
      rw [load_of_content short clean given, noted]
      rfl
  | none =>
      simp only [loadWith, Nat.not_lt.mpr short, loadParsed, clean, given]
      rfl

theorem loadData_of_valid {data : Value} {document : Written.Document}
    (accepted : Written.checkDocument (some data) = .valid document) (limit : Nat) :
    loadData limit data =
      { definitions :=
          if Diagnostic.hasErrors document.read.notes then none else some document.read.value
        diagnostics := Diagnostic.settle document.read.notes limit } := by
  rcases Verdict.eq_valid_iff.mp accepted with ⟨value, issues⟩
  simp only [loadData, value, issues]

/-- The diagnostics of a text tell of each place whose text is no type, and there
are definitions just when there is no such place: every type in them is what the
text of some place says. -/
structure TellsTypes (read : Reader) (text : String) (limits : Limits) : Prop where
  diagnostics : (loadWith read text limits).diagnostics =
    (typePositions (read text)).filterMap TypePosition.report?
  definitions : (loadWith read text limits).definitions = none ↔
    ∃ position ∈ typePositions (read text), position.Rejected
  distinct : ((typePositions (read text)).map TypePosition.path).Nodup
  types : ∀ definitions, (loadWith read text limits).definitions = some definitions →
    ∀ definition ∈ definitions, ∀ type ∈ definition.types,
      ∃ position ∈ typePositions (read text),
        TypeExpression.parse position.expression position.line = .ok type

/-- A function on one line that returns and throws the same malformed type. -/
def malformedTwice : String :=
  "\x7bdefinitions: [\x7bkind: service, name: S, functions: [
  \x7bname: f, returns: list<, throws: [\x7bname: e, type: list<\x7d]\x7d]\x7d]\x7d"

end IdlLinker.Load
