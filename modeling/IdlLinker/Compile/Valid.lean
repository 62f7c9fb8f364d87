import Mathlib.Data.List.Defs
import IdlLinker.Compile.Definition

/-!
# Valid definitions

What field groups, functions, services and enums have to keep, said without
the tables and counters that check it: distinct names and identifiers, numbers
in range, and the values of items in closed form.  A list that is not valid
breaks at one of its elements, and an element that is refused fails one check
before all others.
-/

namespace IdlLinker

section Lists

variable {α β κ : Type}

/-- The first check of an order that does not hold. -/
structure FirstFailing (holds : κ → Prop) (order : List κ) (check : κ) : Prop where
  passes : ∃ earlier later, order = earlier ++ check :: later ∧ ∀ other ∈ earlier, holds other
  fails : ¬ holds check

/-- The first item of a list with which it is no longer valid. -/
structure BreaksAt (valid : List α → Prop) (items before : List α) (item : α) : Prop where
  split : ∃ after, items = before ++ item :: after
  sound : valid before
  broken : ¬ valid (before ++ [item])

/-- Lists related item by item, where what stands before an item counts. -/
inductive Along (relation : List α → α → β → Prop) : List α → List α → List β → Prop
  | nil {before : List α} : Along relation before [] []
  | cons {before : List α} {item : α} {items : List α} {made : β} {others : List β}
      (here : relation before item made)
      (later : Along relation (before ++ [item]) items others) :
      Along relation before (item :: items) (made :: others)

/-- An item has the name of an earlier one, and the error tells the line of
that one. -/
def Redeclares (declare : α → String × Number) (before : List α) (item : α)
    (error : CompileError) : Prop :=
  ∃ first ∈ before, (declare first).1 = (declare item).1 ∧
    error = .duplicateName (declare item).1 (declare first).2

end Lists

namespace FieldGroup

/-- A number that can be written as an identifier. -/
def IsId (number : Number) : Prop := ∃ id, number = .ofInt id ∧ minId ≤ id ∧ id ≤ maxId

/-- What a field group has to keep. -/
structure Valid (rules : FieldRules) (fields : List Field) : Prop where
  names : (fields.map (·.name)).Nodup
  ids : ∀ field ∈ fields, ∀ id ∈ field.id, IsId id
  distinct : (fields.filterMap (·.id)).Nodup
  defaults : rules.defaultsAllowed = false → ∀ field ∈ fields, field.defaultValue = none
  required : rules.requiredAllowed = false →
    ∀ field ∈ fields, field.requiredness ≠ some .required

/-- What is checked of a field. -/
inductive FieldCheck
  | name
  | idRange
  | idTaken
  | default
  | requiredness
  deriving DecidableEq

namespace FieldCheck

/-- The checks in the order in which they are made. -/
def order : List FieldCheck := [name, idRange, idTaken, default, requiredness]

/-- A check holds of a field after others. -/
def Holds (rules : FieldRules) (before : List Field) (field : Field) : FieldCheck → Prop
  | name => field.name ∉ before.map (·.name)
  | idRange => ∀ id ∈ field.id, IsId id
  | idTaken => ∀ id ∈ field.id, id ∉ before.filterMap (·.id)
  | default => rules.defaultsAllowed = false → field.defaultValue = none
  | requiredness => rules.requiredAllowed = false → field.requiredness ≠ some .required

/-- The error of a check that does not hold.  One about a name or an identifier
tells the line of the field that has it. -/
def Reports (before : List Field) (field : Field) (error : CompileError) : FieldCheck → Prop
  | name => Redeclares (fun other => (other.name, other.line)) before field error
  | idRange => ∃ id ∈ field.id, error = .invalidFieldId field.name id
  | idTaken => ∃ id ∈ field.id, ∃ first ∈ before,
      first.id = some id ∧ error = .duplicateFieldId id field.name first.line
  | default => error = .illegalDefault field.name
  | requiredness => error = .illegalRequiredness field.name

end FieldCheck

/-- A group is refused with the error of its first field that cannot follow
those before it, which is that of the first check that fails. -/
def Refused (rules : FieldRules) (fields : List Field) (error : CompileError) : Prop :=
  ∃ before field check, BreaksAt (Valid rules) fields before field ∧
    FirstFailing (FieldCheck.Holds rules before field) FieldCheck.order check ∧
      check.Reports before field error

/-- The identifier of a field after others: its own, or the next one below
those that were given out. -/
def HasId (before : List Field) (field : Field) (id : Int) : Prop :=
  match field.id with
  | some number => number = .ofInt id
  | none => id = -(1 + (before.countP (·.id.isNone) : Int))

/-- What a field compiles to after others, with a type that stands for its
written one. -/
structure FieldAs {ρ : Type} (typed : TypeExpression → ρ → Prop) (before : List Field)
    (field : Field) (spec : FieldSpec ρ) : Prop where
  id : HasId before field spec.id
  name : spec.name = field.name
  type : typed field.type spec.type
  required : spec.required = true ↔ field.requiredness = some .required
  default : spec.defaultValue = field.defaultValue

/-- What the fields of a group compile to. -/
def FieldsAs {ρ : Type} (typed : TypeExpression → ρ → Prop) (fields : List Field)
    (specs : List (FieldSpec ρ)) : Prop :=
  Along (FieldAs typed) [] fields specs

/-- The warnings about the fields without an identifier. -/
def warnings (fields : List Field) : Journal :=
  (fields.filter (·.id.isNone)).mapIdx fun count field =>
    implicitIdWarning field (-(1 + (count : Int)))

end FieldGroup

namespace Function

/-- What is checked of a function. -/
inductive FunctionCheck
  | onewayReturn
  | onewayThrows
  | arguments
  | throws
  deriving DecidableEq

namespace FunctionCheck

/-- The checks in the order in which they are made. -/
def order : List FunctionCheck := [onewayReturn, onewayThrows, arguments, throws]

/-- A check holds of a function; exceptions take no default values. -/
def Holds (function : Function) : FunctionCheck → Prop
  | onewayReturn => function.oneway = true → function.returnType = none
  | onewayThrows => function.oneway = true → function.exceptions = []
  | arguments => FieldGroup.Valid {} function.parameters
  | throws => FieldGroup.Valid { defaultsAllowed := false } function.exceptions

/-- The error of a check that does not hold. -/
def Reports (function : Function) (error : CompileError) : FunctionCheck → Prop
  | onewayReturn => error = .invalidFunction function.name "cannot have a return type"
  | onewayThrows => error = .invalidFunction function.name "cannot throw exceptions"
  | arguments => FieldGroup.Refused {} function.parameters error
  | throws => FieldGroup.Refused { defaultsAllowed := false } function.exceptions error

end FunctionCheck

/-- What a function has to keep. -/
def Valid (function : Function) : Prop := ∀ check, FunctionCheck.Holds function check

/-- A function is refused with the error of its first check that fails. -/
def Refused (function : Function) (error : CompileError) : Prop :=
  ∃ check, FirstFailing (FunctionCheck.Holds function) FunctionCheck.order check ∧
    check.Reports function error

/-- What a function compiles to.  It gives something back when it has a returned
type or exceptions. -/
structure CompiledAs {ρ : Type} (typed : TypeExpression → ρ → Prop) (function : Function)
    (spec : FunctionSpec ρ) : Prop where
  name : spec.name = function.name
  args : FieldGroup.FieldsAs typed function.parameters spec.args
  gives : spec.result.isSome = true ↔
    function.returnType.isSome = true ∨ function.exceptions ≠ []
  result : ∀ result ∈ spec.result, Option.Rel typed function.returnType result.returnType ∧
    FieldGroup.FieldsAs typed function.exceptions result.exceptions
  oneway : spec.oneway = function.oneway

end Function

namespace ServiceDefinition

/-- What the functions of a service have to keep. -/
structure Valid (functions : List Function) : Prop where
  names : (functions.map (·.name)).Nodup
  each : ∀ function ∈ functions, function.Valid

/-- The functions of a service are refused at the first that cannot follow those
before it: for its name, or else with the error of its body under its name. -/
def Refused (functions : List Function) (error : CompileError) : Prop :=
  ∃ before function, BreaksAt Valid functions before function ∧
    (Redeclares (fun other => (other.name, other.line)) before function error ∨
      function.name ∉ before.map (·.name) ∧
        ∃ cause, function.Refused cause ∧ error = .wrapped .compile function.name cause)

/-- What a service compiles to: its own functions in order, and the name and the
line of the service that it extends. -/
structure CompiledAs (definition : ServiceDefinition) (spec : ServiceSpec) : Prop where
  name : spec.name = definition.name
  parent : spec.parent = definition.parent
  functions : List.Forall₂ (Function.CompiledAs Eq) definition.functions spec.functions

end ServiceDefinition

/-- A number and a count, added exactly. -/
def Number.plus : Number → Nat → Number
  | .finite value, count => .finite (value + (count : Int))
  | number, _ => number

namespace EnumDefinition

/-- A number that is a 32-bit integer. -/
def IsValue (number : Number) : Prop :=
  ∃ value, number = .ofInt value ∧ minValue ≤ value ∧ value ≤ maxValue

/-- The value of an item that has none of its own: the nearest one before it and
the distance to that, or its position. -/
def impliedValue (before : List EnumItem) : Number :=
  match before.reverse.findSome? (·.value) with
  | some value => value.plus ((before.reverse.takeWhile (·.value.isNone)).length + 1)
  | none => .ofNat before.length

/-- The value of an item after others. -/
def valueAt (before : List EnumItem) (item : EnumItem) : Number :=
  item.value.getD (impliedValue before)

/-- What the items of an enum have to keep. -/
structure Valid (items : List EnumItem) : Prop where
  names : (items.map (·.name)).Nodup
  values : ∀ before item after, items = before ++ item :: after → IsValue (valueAt before item)

/-- The items of an enum are refused at the first that cannot follow those
before it: for its name, or else for its value. -/
def Refused (items : List EnumItem) (error : CompileError) : Prop :=
  ∃ before item, BreaksAt Valid items before item ∧
    (Redeclares (fun other => (other.name, other.line)) before item error ∨
      item.name ∉ before.map (·.name) ∧ ¬ IsValue (valueAt before item) ∧
        error = .invalidEnumValue item.name (valueAt before item))

/-- What an item compiles to after others. -/
structure ItemAs (before : List EnumItem) (item : EnumItem) (spec : EnumItemSpec) : Prop where
  name : spec.name = item.name
  value : valueAt before item = .ofInt spec.value

end EnumDefinition

end IdlLinker
