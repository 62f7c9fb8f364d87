import IdlLinker.Definition
import IdlLinker.Shape

/-!
# Documents as written

A document that has the right shape: types are still text, a field may say
whether it is required, and an enum item may be a bare name.  Each checker
below names the keys of its record in the order in which they are checked.

A definition is checked as `z.discriminatedUnion` does: data that is no record is
refused, and otherwise the text under the key of the kind selects one schema,
whose issues are the only ones.  A kind that selects none is one issue at that
key, which lists the kinds in the order of the schemas.
-/

namespace IdlLinker.Written

/-- A field as written. -/
structure Field where
  id : Option Number
  name : String
  type : String
  required : Option Bool
  default : Option Value
  line : Number

/-- A function as written. -/
structure Function where
  name : String
  returns : Option String
  oneway : Bool
  args : List Field
  throws : List Field
  line : Number

/-- An enum item as written. -/
inductive EnumItem
  | bare (name : String)
  | full (name : String) (value : Option Number) (line : Number)

/-- A struct, union or exception as written. -/
structure Struct where
  kind : StructKind
  name : String
  fields : List Field
  line : Number

/-- A typedef as written. -/
structure Typedef where
  name : String
  type : String
  line : Number

/-- An enum as written. -/
structure Enum where
  name : String
  items : List EnumItem
  line : Number

/-- A service as written. -/
structure Service where
  name : String
  parent : Option String
  functions : List Function
  line : Number

/-- A definition as written. -/
inductive Definition
  | struct (body : Struct)
  | typedef (body : Typedef)
  | enum (body : Enum)
  | service (body : Service)

/-- A document as written. -/
structure Document where
  definitions : List Definition
  line : Number

open Shape

/-- Check a field. -/
def checkField : Check Field :=
  record ["id", "name", "type", "required", "default", "line"] fun entries =>
    Field.mk <$> part "id" (optional integer) entries
      <*> part "name" identifier entries
      <*> part "type" typeText entries
      <*> part "required" (optional boolean) entries
      <*> part "default" (optional constant) entries
      <*> part "line" line entries

/-- Check a function. -/
def checkFunction : Check Function :=
  record ["name", "returns", "oneway", "args", "throws", "line"] fun entries =>
    Function.mk <$> part "name" identifier entries
      <*> part "returns" (optional typeText) entries
      <*> part "oneway" (withDefault false boolean) entries
      <*> part "args" (withDefault [] (list checkField)) entries
      <*> part "throws" (withDefault [] (list checkField)) entries
      <*> part "line" line entries

/-- Check a struct, union or exception. -/
def checkStruct (kind : StructKind) : Check Struct :=
  record ["kind", "name", "fields", "line"] fun entries =>
    (fun _ => Struct.mk kind) <$> part "kind" (literal kind.word) entries
      <*> part "name" identifier entries
      <*> part "fields" (withDefault [] (list checkField)) entries
      <*> part "line" line entries

/-- Check a typedef. -/
def checkTypedef : Check Typedef :=
  record ["kind", "name", "type", "line"] fun entries =>
    (fun _ => Typedef.mk) <$> part "kind" (literal "typedef") entries
      <*> part "name" identifier entries
      <*> part "type" typeText entries
      <*> part "line" line entries

/-- Check an enum item that is a record. -/
def checkFullItem : Check EnumItem :=
  record ["name", "value", "line"] fun entries =>
    EnumItem.full <$> part "name" identifier entries
      <*> part "value" (optional integer) entries
      <*> part "line" line entries

/-- Check an enum item: a bare name or a record. -/
def checkEnumItem : Check EnumItem := fun value =>
  Verdict.orElse ((identifier value).map .bare) (checkFullItem value)

/-- Check an enum. -/
def checkEnum : Check Enum :=
  record ["kind", "name", "items", "line"] fun entries =>
    (fun _ => Enum.mk) <$> part "kind" (literal "enum") entries
      <*> part "name" identifier entries
      <*> part "items" (withDefault [] (list checkEnumItem)) entries
      <*> part "line" line entries

/-- Check a service. -/
def checkService : Check Service :=
  record ["kind", "name", "extends", "functions", "line"] fun entries =>
    (fun _ => Service.mk) <$> part "kind" (literal "service") entries
      <*> part "name" identifier entries
      <*> part "extends" (optional serviceName) entries
      <*> part "functions" (withDefault [] (list checkFunction)) entries
      <*> part "line" line entries

/-- The check that a kind of definition selects. -/
def checkOfKind? (kind : String) : Option (Check Definition) :=
  match kind with
  | "struct" => some fun value => (checkStruct .struct value).map .struct
  | "union" => some fun value => (checkStruct .union value).map .struct
  | "exception" => some fun value => (checkStruct .exception value).map .struct
  | "typedef" => some fun value => (checkTypedef value).map .typedef
  | "enum" => some fun value => (checkEnum value).map .enum
  | "service" => some fun value => (checkService value).map .service
  | _ => none

/-- The kinds of definition. -/
def definitionKinds : List String :=
  ["struct", "union", "exception", "typedef", "enum", "service"]

/-- Check a definition.  Its kind selects the check; without a known kind
nothing else is looked at. -/
def checkDefinition : Check Definition
  | some (.record entries) =>
    let selected : Option (Check Definition) :=
      match Record.get? entries "kind" with
      | some (.text kind) => checkOfKind? kind
      | _ => none
    match selected with
    | some check => check (some (.record entries))
    | none =>
      (Verdict.refused (.unknownDefinitionKind definitionKinds)).under (.key "kind")
  | other => wrongKind .object other

/-- Check a document. -/
def checkDocument : Check Document :=
  record ["definitions", "line"] fun entries =>
    Document.mk <$> part "definitions" (withDefault [] (list checkDefinition)) entries
      <*> part "line" line entries

end IdlLinker.Written
