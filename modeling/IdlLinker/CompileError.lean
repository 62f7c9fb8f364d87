import IdlLinker.Number.Shortest

/-!
# Compile errors

Each way a definition can be refused, or a reference fail to resolve, is one
constructor.  An error inside a definition is wrapped with the name of its
owner; the root of a chain is the error that started it.
-/

namespace IdlLinker

/-- The work during which an error was wrapped. -/
inductive Phase
  | compile
  | link
  deriving DecidableEq, Repr

/-- The word for a phase. -/
def Phase.word : Phase → String
  | .compile => "compile"
  | .link => "link"

/-- Why a unit does not compile or link. -/
inductive CompileError
  | duplicateName (name : String) (firstLine : Number)
  | duplicateFieldId (id : Number) (field : String) (firstLine : Number)
  | invalidFieldId (field : String) (id : Number)
  | illegalDefault (field : String)
  | illegalRequiredness (field : String)
  | invalidFunction (function reason : String)
  | invalidEnumValue (item : String) (value : Number)
  | unresolvedReference (name : String) (line : Number)
  | wrapped (phase : Phase) (owner : String) (cause : CompileError)
  deriving DecidableEq

namespace CompileError

/-- The stable code of an error. -/
def code : CompileError → String
  | duplicateName .. => "DUPLICATE_NAME"
  | duplicateFieldId .. => "DUPLICATE_FIELD_ID"
  | invalidFieldId .. => "INVALID_FIELD_ID"
  | illegalDefault .. => "ILLEGAL_DEFAULT_VALUE"
  | illegalRequiredness .. => "ILLEGAL_REQUIREDNESS"
  | invalidFunction .. => "INVALID_FUNCTION"
  | invalidEnumValue .. => "INVALID_ENUM_VALUE"
  | unresolvedReference .. => "UNRESOLVED_REFERENCE"
  | wrapped .. => "WRAPPED"

/-- The text of an error; a wrapped error names its owners outermost first. -/
def message : CompileError → String
  | duplicateName name line =>
    "the name \"" ++ name ++ "\" has already been used on line " ++ line.text
  | duplicateFieldId id _ line =>
    "the field id " ++ id.text ++ " has already been used on line " ++ line.text
  | invalidFieldId field id =>
    "field \"" ++ field ++ "\" has invalid id " ++ id.text ++
      ": ids must be between 1 and 32767"
  | illegalDefault field => "field \"" ++ field ++ "\" cannot have a default value"
  | illegalRequiredness field => "field \"" ++ field ++ "\" cannot be required"
  | invalidFunction function reason =>
    "oneway function \"" ++ function ++ "\" " ++ reason
  | invalidEnumValue item value =>
    "enum item \"" ++ item ++ "\" has invalid value " ++ value.text ++
      ": values must be 32-bit integers"
  | unresolvedReference name _ => name ++ " is not defined"
  | wrapped phase owner cause =>
    "cannot " ++ phase.word ++ " \"" ++ owner ++ "\": " ++ cause.message

/-- The error that started a chain of wrapped errors. -/
def root : CompileError → CompileError
  | wrapped _ _ cause => cause.root
  | error => error

@[simp]
theorem root_wrapped (phase : Phase) (owner : String) (cause : CompileError) :
    (wrapped phase owner cause).root = cause.root := rfl

end CompileError

/-- Wrap an error of a step with the name of its owner. -/
def withOwner {α : Type} (phase : Phase) (owner : String)
    (outcome : Except CompileError α) : Except CompileError α :=
  outcome.mapError (.wrapped phase owner)

end IdlLinker
