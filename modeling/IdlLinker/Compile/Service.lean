import IdlLinker.Compile.FieldGroup

/-!
# Services and functions

The functions of a service have distinct names.  A oneway function has neither
a returned type nor exceptions, and exceptions carry no default values.  The
parent of a service stays a name until it is linked; functions are never
copied from it.
-/

namespace IdlLinker

/-- A service compiled on its own. -/
structure ServiceSpec where
  name : String
  parent : Option ServiceParent
  functions : List (FunctionSpec TypeExpression)

namespace Function

/-- A oneway function that gives something back is refused. -/
def checkOneway (function : Function) : Except CompileError Unit :=
  if function.oneway && function.returnType.isSome then
    .error (.invalidFunction function.name "cannot have a return type")
  else if function.oneway && !function.exceptions.isEmpty then
    .error (.invalidFunction function.name "cannot throw exceptions")
  else .ok ()

/-- What a function gives back; nothing at all when it has neither a returned
type nor exceptions. -/
def resultSpec (returnType : Option TypeExpression)
    (exceptions : List (FieldSpec TypeExpression)) : Option (ResultSpec TypeExpression) :=
  if returnType.isSome || !exceptions.isEmpty then some ⟨returnType, exceptions⟩ else none

/-- Compile a function. -/
def compile (function : Function) : Compilation (FunctionSpec TypeExpression) := do
  Compilation.ofExcept function.checkOneway
  let args ← FieldGroup.compile function.parameters
  let exceptions ← FieldGroup.compile function.exceptions { defaultsAllowed := false }
  return {
    name := function.name
    args
    result := resultSpec function.returnType exceptions
    oneway := function.oneway }

end Function

namespace ServiceDefinition

/-- Compile the remaining functions of a service.  A repeated name is refused
before the body is looked at, and an error of the body names the function. -/
def compileFunctions (names : Namespace) :
    List Function → Compilation (List (FunctionSpec TypeExpression))
  | [] => return []
  | function :: rest => do
    let names ← Compilation.ofExcept (names.claim function.name function.line)
    let spec ← function.compile.ownedBy function.name
    let specs ← compileFunctions names rest
    return spec :: specs

/-- Compile a service. -/
def compile (definition : ServiceDefinition) : Compilation ServiceSpec := do
  let functions ← compileFunctions {} definition.functions
  return { name := definition.name, parent := definition.parent, functions }

end ServiceDefinition

end IdlLinker
