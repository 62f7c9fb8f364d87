import IdlLinker.Definition
import IdlLinker.Shape
import IdlLinker.TypeExpression.Grammar

/-!
# Definitions that can be loaded

Definitions in memory may have any names, numbers and lines.  The ones below
keep the rules of a document: names are identifiers, numbers are integers,
lines count from one, and every type is one that can be written and stands on
the line of what it belongs to.
-/

namespace IdlLinker

/-- A number that a line can have. -/
def Number.IsLine (number : Number) : Prop :=
  number.isInteger = true ∧ number.isPositive = true

instance (number : Number) : Decidable number.IsLine :=
  inferInstanceAs (Decidable (number.isInteger = true ∧ number.isPositive = true))

/-- A type that can be written on a line. -/
structure TypeExpression.Loadable (line : Number) (type : TypeExpression) : Prop where
  wellFormed : type.WellFormed
  onLine : type.OnLine line

/-- A field that a document can hold; its default is a constant. -/
structure Field.Loadable (field : Field) : Prop where
  id : ∀ id ∈ field.id, id.isInteger = true
  name : Name.isIdentifier field.name = true
  type : field.type.Loadable field.line
  default : ∀ value ∈ field.defaultValue, Shape.constant (some value) = .valid value
  line : field.line.IsLine

/-- A function that a document can hold. -/
structure Function.Loadable (function : Function) : Prop where
  name : Name.isIdentifier function.name = true
  returnType : ∀ type ∈ function.returnType, type.Loadable function.line
  parameters : ∀ field ∈ function.parameters, field.Loadable
  exceptions : ∀ field ∈ function.exceptions, field.Loadable
  line : function.line.IsLine

/-- An enum item that a document can hold. -/
structure EnumItem.Loadable (item : EnumItem) : Prop where
  name : Name.isIdentifier item.name = true
  value : ∀ value ∈ item.value, value.isInteger = true
  line : item.line.IsLine

namespace Definition

/-- What a document can hold under a definition's own name. -/
def BodyLoadable : Definition → Prop
  | struct definition => ∀ field ∈ definition.fields, field.Loadable
  | typedef definition => definition.target.Loadable definition.line
  | enum definition => ∀ item ∈ definition.items, item.Loadable
  | service definition =>
    (∀ parent ∈ definition.parent,
      Name.Qualified parent.name ∧ parent.line = definition.line) ∧
      ∀ function ∈ definition.functions, function.Loadable

/-- A definition that a document can hold. -/
structure Loadable (definition : Definition) : Prop where
  name : Name.isIdentifier definition.name = true
  body : definition.BodyLoadable
  line : definition.line.IsLine

end Definition

end IdlLinker
