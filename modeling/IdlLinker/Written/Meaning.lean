import IdlLinker.Diagnostic
import IdlLinker.Noted
import IdlLinker.TypeExpression.Parser
import IdlLinker.Written

/-!
# The meaning of a written document

A document of the right shape still holds its types as text.  Reading the
types gives definitions; a text that is no type is reported at its path, and a
type of that name stands in its place so that every such text is found.
-/

namespace IdlLinker.Written

/-- A result and the diagnostics on the way to it. -/
abbrev Diagnosed (α : Type) := Noted Diagnostic α

/-- The report of a text that is no type. -/
def rejectedType (path : String) (line : Number) (message : String) : Diagnostic where
  code := "IDL_DOC_TYPE_EXPRESSION_INVALID"
  path
  severity := .error
  message
  line := some line

/-- The type that a text writes. -/
def readType (path expression : String) (line : Number) : Diagnosed TypeExpression :=
  match TypeExpression.parse expression line with
  | .ok type => pure type
  | .error rejection => ⟨.named expression line, [rejectedType path line rejection.message]⟩

/-- Read a list item by item; the path of an item ends in its position. -/
def readEach {α β : Type} (read : String → α → Diagnosed β) (path : String) :
    (position : Nat) → List α → Diagnosed (List β)
  | _, [] => pure []
  | position, item :: rest => do
    let first ← read (path ++ "." ++ toString position) item
    let others ← readEach read path (position + 1) rest
    return first :: others

/-- Whether a field must be present, as it is written. -/
def requirednessOf (required : Bool) : Requiredness :=
  if required then .required else .optional

/-- The field that is written. -/
def Field.read (path : String) (field : Field) : Diagnosed IdlLinker.Field := do
  let type ← readType (path ++ ".type") field.type field.line
  return {
    id := field.id
    name := field.name
    type
    requiredness := field.required.map requirednessOf
    defaultValue := field.default
    line := field.line }

/-- The function that is written. -/
def Function.read (path : String) (function : Function) : Diagnosed IdlLinker.Function := do
  let returnType ←
    match function.returns with
    | some expression =>
      let type ← readType (path ++ ".returns") expression function.line
      pure (some type)
    | none => pure none
  let parameters ← readEach Field.read (path ++ ".args") 0 function.args
  let exceptions ← readEach Field.read (path ++ ".throws") 0 function.throws
  return {
    name := function.name
    returnType
    parameters
    exceptions
    oneway := function.oneway
    line := function.line }

/-- The enum item that is written; a bare name stands on the line of its enum. -/
def EnumItem.read (line : Number) : EnumItem → IdlLinker.EnumItem
  | .bare name => { name, line }
  | .full name value line => { name, value, line }

/-- The definition that is written. -/
def Definition.read (path : String) : Definition → Diagnosed IdlLinker.Definition
  | .struct body => do
    let fields ← readEach Field.read (path ++ ".fields") 0 body.fields
    return .struct { kind := body.kind, name := body.name, fields, line := body.line }
  | .typedef body => do
    let target ← readType (path ++ ".type") body.type body.line
    return .typedef { name := body.name, target, line := body.line }
  | .enum body =>
    pure (.enum
      { name := body.name, items := body.items.map (EnumItem.read body.line), line := body.line })
  | .service body => do
    let functions ← readEach Function.read (path ++ ".functions") 0 body.functions
    let parent := body.parent.map fun name => { name, line := body.line }
    return .service { name := body.name, parent, functions, line := body.line }

/-- The definitions that are written. -/
def Document.read (document : Document) : Diagnosed (List IdlLinker.Definition) :=
  readEach Definition.read "document.definitions" 0 document.definitions

end IdlLinker.Written
