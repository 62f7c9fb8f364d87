import IdlLinker.Compile.Definition
import IdlLinker.Graph

/-!
# Compiled definitions as objects

A written type becomes a slot: a base type is shared, a name stays a
reference, and every container becomes an object of its own.  Definitions and
functions become objects whose slots are made from their written types.
-/

namespace IdlLinker

/-- Make a slot for a written type. -/
def TypeExpression.install : TypeExpression → StateM Graph Slot
  | .base type _ => return .primitive type
  | .named name line => return .unresolved ⟨.type, name, line⟩
  | .map key value _ => do
    let keySlot ← key.install
    let valueSlot ← value.install
    return .object (← modifyGet (·.add (.map keySlot valueSlot)))
  | .list value _ => do
    let valueSlot ← value.install
    return .object (← modifyGet (·.add (.list valueSlot)))
  | .set value _ => do
    let valueSlot ← value.install
    return .object (← modifyGet (·.add (.set valueSlot)))

/-- Make slots for the types of fields. -/
def FieldSpec.installAll : List (FieldSpec TypeExpression) → StateM Graph (List (FieldSpec Slot))
  | [] => return []
  | field :: rest => do
    let slot ← field.type.install
    let others ← FieldSpec.installAll rest
    return field.withType slot :: others

/-- Make slots for what a function gives back. -/
def ResultSpec.install (result : ResultSpec TypeExpression) : StateM Graph (ResultSpec Slot) := do
  let returnType ← result.returnType.mapM TypeExpression.install
  let exceptions ← FieldSpec.installAll result.exceptions
  return { returnType, exceptions }

/-- Make an object of a function. -/
def FunctionSpec.install (function : FunctionSpec TypeExpression) : StateM Graph ObjectId := do
  let args ← FieldSpec.installAll function.args
  let result ← function.result.mapM ResultSpec.install
  modifyGet (·.add (.function { name := function.name, args, result, oneway := function.oneway }))

/-- Make objects of the functions of a service. -/
def FunctionSpec.installAll :
    List (FunctionSpec TypeExpression) → StateM Graph (List (String × Slot))
  | [] => return []
  | function :: rest => do
    let id ← function.install
    let others ← FunctionSpec.installAll rest
    return (function.name, .object id) :: others

/-- Make an object of a service. -/
def ServiceSpec.install (service : ServiceSpec) : StateM Graph ObjectId := do
  let functions ← FunctionSpec.installAll service.functions
  let parent : Option Slot :=
    service.parent.map fun parent => .unresolved ⟨.service, parent.name, parent.line⟩
  modifyGet (·.add (.service service.name parent functions))

/-- Make an object of a field group that belongs to nothing else. -/
def FieldGroup.install (fields : List (FieldSpec TypeExpression)) : StateM Graph ObjectId := do
  let fields ← FieldSpec.installAll fields
  modifyGet (·.add (.fieldGroup fields))

/-- Make an object of a compiled definition. -/
def CompiledDefinition.install : CompiledDefinition → StateM Graph ObjectId
  | .struct name kind fields => do
    let fields ← FieldSpec.installAll fields
    modifyGet (·.add (.struct name kind fields))
  | .typedef name target => do
    let target ← target.install
    modifyGet (·.add (.typedef name target))
  | .enum name items => modifyGet (·.add (.enum name items))
  | .service spec => spec.install

end IdlLinker
