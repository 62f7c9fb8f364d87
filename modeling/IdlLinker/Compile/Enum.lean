import IdlLinker.Namespace
import IdlLinker.Spec

/-!
# Enums

An item without a value takes the value of the item before it plus one, and
the first item takes zero.  Every value is a 32-bit integer and every name is
declared once.
-/

namespace IdlLinker.EnumDefinition

/-- The smallest enum value, `-2 ^ 31`. -/
def minValue : Int := -0x80000000

/-- The largest enum value, `2 ^ 31 - 1`. -/
def maxValue : Int := 0x7fffffff

/-- The value of an item, given the value it takes when none is written. -/
def itemValue (item : EnumItem) (implicit : Int) : Except CompileError Int :=
  let value := item.value.getD (.ofInt implicit)
  match value.toInt? with
  | some integer =>
    if minValue ≤ integer ∧ integer ≤ maxValue then .ok integer
    else .error (.invalidEnumValue item.name value)
  | none => .error (.invalidEnumValue item.name value)

/-- Compile the remaining items of an enum. -/
def compileItems (names : Namespace) (implicit : Int) :
    List EnumItem → Except CompileError (List EnumItemSpec)
  | [] => return []
  | item :: rest => do
    let names ← names.claim item.name item.line
    let value ← itemValue item implicit
    let specs ← compileItems names (value + 1) rest
    return ⟨item.name, value⟩ :: specs

/-- The items of a compiled enum. -/
def compile (definition : EnumDefinition) : Except CompileError (List EnumItemSpec) :=
  withOwner .compile definition.name (compileItems {} 0 definition.items)

end IdlLinker.EnumDefinition
