import IdlLinker.Compile.Enum
import IdlLinker.Compile.Service

/-!
# Compiling a definition

Each definition is compiled on its own.  References to other definitions are
kept by name; only what the definition itself says is checked.
-/

namespace IdlLinker

/-- A definition compiled on its own. -/
inductive CompiledDefinition
  | struct (name : String) (kind : StructKind) (fields : List (FieldSpec TypeExpression))
  | typedef (name : String) (target : TypeExpression)
  | enum (name : String) (items : List EnumItemSpec)
  | service (spec : ServiceSpec)

/-- Everything but a service is a type. -/
def CompiledDefinition.kind : CompiledDefinition → EntityKind
  | .service _ => .service
  | _ => .type

/-- A union takes neither default values nor required fields. -/
def StructKind.rules : StructKind → FieldRules
  | .union => { defaultsAllowed := false, requiredAllowed := false }
  | _ => {}

/-- The fields of a compiled struct, union or exception. -/
def StructDefinition.compile (definition : StructDefinition) :
    Compilation (List (FieldSpec TypeExpression)) :=
  (FieldGroup.compile definition.fields definition.kind.rules).ownedBy definition.name

/-- Compile a definition. -/
def Definition.compile : Definition → Compilation CompiledDefinition
  | .struct definition => return .struct definition.name definition.kind (← definition.compile)
  | .typedef definition => return .typedef definition.name definition.target
  | .enum definition =>
    return .enum definition.name (← Compilation.ofExcept definition.compile)
  | .service definition => return .service (← definition.compile)

end IdlLinker
