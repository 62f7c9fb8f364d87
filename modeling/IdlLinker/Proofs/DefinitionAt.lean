import Mathlib.Data.List.Forall2
import IdlLinker.Load.Origins
import IdlLinker.TypeExpression.Grammar

/-!
# Definitions at nodes

What a node of a document stands for: a mapping for a definition, a function or
a field, and a mapping or a bare name for an enum item.  A mapping may say its
own line; everything else stands on the line on which its node starts.  Types
are on the line of what they belong to, and default values have no lines.
-/

namespace IdlLinker.Load

open Value (lineKey)
open Yaml (Node Parsed)

/-! ## Default values -/

mutual

/-- Data without the key that is left out of constants. -/
def trimmed : Value → Value
  | .list items => .list (trimmedItems items)
  | .record entries => .record (trimmedEntries entries)
  | value => value

/-- The items of a list without the key that is left out. -/
def trimmedItems : List Value → List Value
  | [] => []
  | item :: rest => trimmed item :: trimmedItems rest

/-- The entries of a record without the key that is left out. -/
def trimmedEntries : List (String × Value) → List (String × Value)
  | [] => []
  | (key, value) :: rest =>
    if key = Shape.droppedKey then trimmedEntries rest
    else (key, trimmed value) :: trimmedEntries rest

end

/-- The last value among pairs with a key, where `keyOf` gives the texts of keys. -/
def lastPlain? (keyOf : Node → String) (pairs : List (Node × Option Node)) (key : String) :
    Option Node :=
  (pairs.reverse.find? fun pair => keyOf pair.1 == key).bind (·.2)

/-- A value is the plain data of a node, where `keyOf` gives the texts of keys.  A
record has the keys of its mapping but for the one that is left out of constants,
and no others: in particular a line only where the mapping writes one.  Of pairs
and of data of another kind nothing is said. -/
inductive PlainAt (keyOf : Node → String) : Node → Value → Prop
  | aliased (name : String) (start : Option Nat) :
    PlainAt keyOf (.aliased name start) (.record [("source", .text name)])
  | scalar (content : Yaml.Scalar) (start : Option Nat)
      (own : ∀ object spelling, content ≠ .other object spelling) :
    PlainAt keyOf (.scalar content start) content.toValue
  | other (object : Foreign) (spelling : String) (start : Option Nat) (value : Value) :
    PlainAt keyOf (.scalar (.other object spelling) start) value
  | pair (key : Node) (written : Option Node) (object : Foreign) (value : Value) :
    PlainAt keyOf (.pair key written object) value
  | sequence {items : List Node} {values : List Value} (start : Option Nat)
      (each : List.Forall₂ (PlainAt keyOf) items values) :
    PlainAt keyOf (.sequence items start) (.list values)
  | mapping {pairs : List (Node × Option Node)} {entries : List (String × Value)}
      (start : Option Nat)
      (keys : ∀ key, key ∈ entries.map (·.1) ↔
        key ≠ Shape.droppedKey ∧ ∃ pair ∈ pairs, keyOf pair.1 = key)
      (values : ∀ key value written, Record.get? entries key = some value →
        lastPlain? keyOf pairs key = some written → PlainAt keyOf written value) :
    PlainAt keyOf (.mapping pairs start) (.record entries)

/-! ## Definitions -/

section Document

variable (document : Parsed)

/-- The line that a node gives to what it stands for. -/
def nodeLine? (node : Node) : Option Number :=
  if document.has node lineKey then document.number? node lineKey else document.lineOf? node

/-- A mapping writes a type under a key, and the whole type is on one line. -/
structure TypeAt (node : Node) (key : String) (line : Number) (type : TypeExpression) : Prop where
  parsed : ∃ expression, document.text? node key = some expression ∧
    TypeExpression.parse expression line = .ok type
  onLine : type.OnLine line

/-- A mapping gives a default value, or none: the plain data of a node, but for the
key that is left out of constants.  Nothing is put into it. -/
def DefaultAt (node : Node) : Option Value → Prop
  | none => document.member? node defaultKey = none
  | some value => ∃ written, document.member? node defaultKey = some written ∧
    value = trimmed (document.plain written)

/-- A mapping stands for a field. -/
structure FieldAt (node : Node) (field : Field) : Prop where
  id : document.number? node "id" = field.id
  name : document.text? node "name" = some field.name
  type : TypeAt document node "type" field.line field.type
  default : DefaultAt document node field.defaultValue
  line : nodeLine? document node = some field.line

/-- A mapping stands for a function. -/
structure FunctionAt (node : Node) (function : Function) : Prop where
  name : document.text? node "name" = some function.name
  returns : ∀ type ∈ function.returnType, TypeAt document node "returns" function.line type
  args : List.Forall₂ (FieldAt document) (document.parts node "args") function.parameters
  throws : List.Forall₂ (FieldAt document) (document.parts node "throws") function.exceptions
  line : nodeLine? document node = some function.line

/-- A mapping or a bare name stands for an enum item. -/
structure ItemAt (node : Node) (item : EnumItem) : Prop where
  name : declaredName? document node = some item.name
  value : document.number? node "value" = item.value
  line : nodeLine? document node = some item.line

/-- What a mapping holds besides the name and the line of a definition. -/
def BodyAt (node : Node) : Definition → Prop
  | .struct definition =>
    List.Forall₂ (FieldAt document) (document.parts node "fields") definition.fields
  | .typedef definition => TypeAt document node "type" definition.line definition.target
  | .enum definition =>
    List.Forall₂ (ItemAt document) (document.parts node "items") definition.items
  | .service definition =>
    document.text? node "extends" = definition.parent.map (·.name) ∧
      (∀ parent ∈ definition.parent, parent.line = definition.line) ∧
        List.Forall₂ (FunctionAt document) (document.parts node "functions")
          definition.functions

/-- A mapping stands for a definition. -/
structure DefinitionAt (node : Node) (definition : Definition) : Prop where
  kind : document.text? node "kind" = some definition.kindWord
  name : document.text? node "name" = some definition.name
  body : BodyAt document node definition
  line : nodeLine? document node = some definition.line

end Document

end IdlLinker.Load
