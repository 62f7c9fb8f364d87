import IdlLinker.TypeExpression
import IdlLinker.Value

/-!
# Definitions

A unit is a list of definitions: structs, unions and exceptions, typedefs,
enums and services.  Lines, field identifiers and enum values are kept as they
were written, whether or not they are valid.
-/

namespace IdlLinker

/-- Whether a field must be present. -/
inductive Requiredness
  | required
  | optional
  deriving DecidableEq, Repr

/-- A field of a struct body, an argument list or a throws list. -/
structure Field where
  id : Option Number := none
  name : String
  type : TypeExpression
  requiredness : Option Requiredness := none
  defaultValue : Option Value := none
  line : Number

/-- The definitions that hold a field group. -/
inductive StructKind
  | struct
  | union
  | exception
  deriving DecidableEq, Repr, Inhabited

/-- The word for a kind of struct. -/
def StructKind.word : StructKind → String
  | .struct => "struct"
  | .union => "union"
  | .exception => "exception"

/-- A struct, union or exception. -/
structure StructDefinition where
  kind : StructKind
  name : String
  fields : List Field
  line : Number

/-- Another name for a type. -/
structure TypedefDefinition where
  name : String
  target : TypeExpression
  line : Number

/-- An item of an enum, with its value if one is written. -/
structure EnumItem where
  name : String
  value : Option Number := none
  line : Number
  deriving DecidableEq

/-- An enum. -/
structure EnumDefinition where
  name : String
  items : List EnumItem
  line : Number
  deriving DecidableEq

/-- A function of a service. -/
structure Function where
  name : String
  returnType : Option TypeExpression := none
  parameters : List Field
  exceptions : List Field
  oneway : Bool
  line : Number

/-- The service that another one extends. -/
structure ServiceParent where
  name : String
  line : Number
  deriving DecidableEq

/-- A service. -/
structure ServiceDefinition where
  name : String
  parent : Option ServiceParent := none
  functions : List Function
  line : Number

/-- A definition at the top level of a unit. -/
inductive Definition
  | struct (definition : StructDefinition)
  | typedef (definition : TypedefDefinition)
  | enum (definition : EnumDefinition)
  | service (definition : ServiceDefinition)

namespace Definition

/-- The name a definition declares. -/
def name : Definition → String
  | struct definition => definition.name
  | typedef definition => definition.name
  | enum definition => definition.name
  | service definition => definition.name

/-- The line a definition starts at. -/
def line : Definition → Number
  | struct definition => definition.line
  | typedef definition => definition.line
  | enum definition => definition.line
  | service definition => definition.line

/-- The word for the kind of a definition. -/
def kindWord : Definition → String
  | struct definition => definition.kind.word
  | typedef _ => "typedef"
  | enum _ => "enum"
  | service _ => "service"

end Definition

end IdlLinker
