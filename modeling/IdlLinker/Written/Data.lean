import IdlLinker.Definition
import IdlLinker.TypeExpression.Grammar
import IdlLinker.Value

/-!
# The data of definitions

The located data that stands for definitions in a document: types are written
as text, members without a value are left out, and everything says its line.
Lists without items and flags that are false can be written or left out.
-/

namespace IdlLinker

/-- The entries of a record whose members may be absent. -/
def Record.present {α : Type} (members : List (String × Option α)) : List (String × α) :=
  members.filterMap fun member => member.2.map fun value => (member.1, value)

/-- Whether members are written that may be left out. -/
structure Spelling where
  emptyLists : Bool := false
  falseFlags : Bool := false

namespace Spelling

/-- A list as a member of a record. -/
def list (spelling : Spelling) (items : List Value) : Option Value :=
  if items.isEmpty && !spelling.emptyLists then none else some (.list items)

/-- A flag as a member of a record. -/
def flag (spelling : Spelling) (value : Bool) : Option Value :=
  if !value && !spelling.falseFlags then none else some (.boolean value)

end Spelling

/-- A field must be present. -/
def Requiredness.isRequired : Requiredness → Bool
  | .required => true
  | .optional => false

/-- The data of a field. -/
def Field.data (field : Field) : Value :=
  .record (Record.present
    [("id", field.id.map .number),
     ("name", some (.text field.name)),
     ("type", some (.text field.type.text)),
     ("required", field.requiredness.map fun requiredness => .boolean requiredness.isRequired),
     ("default", field.defaultValue),
     ("line", some (.number field.line))])

/-- The data of a function. -/
def Function.data (spelling : Spelling) (function : Function) : Value :=
  .record (Record.present
    [("name", some (.text function.name)),
     ("returns", function.returnType.map fun type => .text type.text),
     ("oneway", spelling.flag function.oneway),
     ("args", spelling.list (function.parameters.map Field.data)),
     ("throws", spelling.list (function.exceptions.map Field.data)),
     ("line", some (.number function.line))])

/-- The data of an enum item. -/
def EnumItem.data (item : EnumItem) : Value :=
  .record (Record.present
    [("name", some (.text item.name)),
     ("value", item.value.map .number),
     ("line", some (.number item.line))])

namespace Definition

/-- The members of a definition between its name and its line. -/
def bodyData (spelling : Spelling) : Definition → List (String × Option Value)
  | struct definition => [("fields", spelling.list (definition.fields.map Field.data))]
  | typedef definition => [("type", some (.text definition.target.text))]
  | enum definition => [("items", spelling.list (definition.items.map EnumItem.data))]
  | service definition =>
    [("extends", definition.parent.map fun parent => .text parent.name),
     ("functions", spelling.list (definition.functions.map (Function.data spelling)))]

/-- The data of a definition. -/
def data (spelling : Spelling) (definition : Definition) : Value :=
  .record (Record.present
    (("kind", some (.text definition.kindWord)) :: ("name", some (.text definition.name)) ::
      (definition.bodyData spelling ++ [("line", some (.number definition.line))])))

end Definition

/-- The data of a document. -/
def documentData (spelling : Spelling) (line : Number) (definitions : List Definition) : Value :=
  .record (Record.present
    [("definitions", spelling.list (definitions.map (Definition.data spelling))),
     ("line", some (.number line))])

end IdlLinker
