import IdlLinker.Compile.Definition
import IdlLinker.Graph

/-!
# What a definition mentions

A definition mentions the types whose names occur in its written types, inside
containers too, and a service mentions the service it extends.
-/

namespace IdlLinker

/-- The names in a written type, in order. -/
def TypeExpression.references : TypeExpression → List Reference
  | .base _ _ => []
  | .named name line => [⟨.type, name, line⟩]
  | .map key value _ => key.references ++ value.references
  | .list value _ => value.references
  | .set value _ => value.references

/-- The service that is extended, as a reference. -/
def ServiceParent.reference (parent : ServiceParent) : Reference :=
  ⟨.service, parent.name, parent.line⟩

/-- The written types of a function: arguments, returned type, exceptions. -/
def Function.types (function : Function) : List TypeExpression :=
  function.parameters.map (·.type) ++ function.returnType.toList ++
    function.exceptions.map (·.type)

namespace Definition

/-- The written types of a definition, in order. -/
def types : Definition → List TypeExpression
  | struct definition => definition.fields.map (·.type)
  | typedef definition => [definition.target]
  | enum _ => []
  | service definition => definition.functions.flatMap (·.types)

/-- The service that a definition extends. -/
def parent? : Definition → Option ServiceParent
  | service definition => definition.parent
  | _ => none

/-- What a definition mentions. -/
def references (definition : Definition) : List Reference :=
  definition.types.flatMap (·.references) ++
    definition.parent?.toList.map (·.reference)

end Definition

namespace CompiledDefinition

/-- The written types of a compiled definition, in order. -/
def types : CompiledDefinition → List TypeExpression
  | struct _ _ fields => fields.map (·.type)
  | typedef _ target => [target]
  | enum _ _ => []
  | service spec => spec.functions.flatMap (·.slots)

/-- The service that a compiled definition extends. -/
def parent? : CompiledDefinition → Option ServiceParent
  | service spec => spec.parent
  | _ => none

/-- What a compiled definition mentions. -/
def references (compiled : CompiledDefinition) : List Reference :=
  compiled.types.flatMap (·.references) ++ compiled.parent?.toList.map (·.reference)

end CompiledDefinition

end IdlLinker
