import IdlLinker.Compile.Valid

/-!
# Where compiling stops, and what it has written by then

A field group that is refused has warned about the fields that were numbered
before its error.  Functions, services, definitions and units pass on what
their parts wrote, in order, up to the first part that is refused; a part that
compiles has written all it has to say.
-/

namespace IdlLinker

/-- Declarations stop at the first that cannot follow those before it: at its
name, which one of them has, or else in its body.  Those before it have written
all they have to say, and the body what it wrote before its error. -/
def StopsAt {α : Type} (valid : List α → Prop) (declare : α → String × Number)
    (whole : α → Journal) (body : α → CompileError → Journal → Prop) (items : List α)
    (error : CompileError) (journal : Journal) : Prop :=
  ∃ before item, BreaksAt valid items before item ∧
    (Redeclares declare before item error ∧ journal = before.flatMap whole ∨
      (declare item).1 ∉ before.map (fun other => (declare other).1) ∧
        ∃ inner, body item error inner ∧ journal = before.flatMap whole ++ inner)

namespace FieldGroup

/-- The fields that have their identifiers when a check of a field fails: the
field itself is numbered between the checks of its identifier. -/
def FieldCheck.numbered (before : List Field) (field : Field) : FieldCheck → List Field
  | name | idRange => before
  | idTaken | default | requiredness => before ++ [field]

/-- A group stops at its first field that cannot follow those before it, with the
error of the first check that fails, and has warned about the fields without an
identifier of their own that were numbered by then. -/
def Stops (rules : FieldRules) (fields : List Field) (error : CompileError) (journal : Journal) :
    Prop :=
  ∃ before field check, BreaksAt (Valid rules) fields before field ∧
    FirstFailing (FieldCheck.Holds rules before field) FieldCheck.order check ∧
      check.Reports before field error ∧ journal = warnings (check.numbered before field)

end FieldGroup

namespace Function

/-- The warnings about a function: about its arguments, and then about what it
throws. -/
def warnings (function : Function) : Journal :=
  FieldGroup.warnings function.parameters ++ FieldGroup.warnings function.exceptions

/-- What a function has written when a check fails. -/
def FunctionCheck.Stops (function : Function) (error : CompileError) (journal : Journal) :
    FunctionCheck → Prop
  | onewayReturn => Reports function error .onewayReturn ∧ journal = []
  | onewayThrows => Reports function error .onewayThrows ∧ journal = []
  | arguments => FieldGroup.Stops {} function.parameters error journal
  | throws => ∃ inner,
      FieldGroup.Stops { defaultsAllowed := false } function.exceptions error inner ∧
        journal = FieldGroup.warnings function.parameters ++ inner

/-- A function stops at its first check that fails. -/
def Stops (function : Function) (error : CompileError) (journal : Journal) : Prop :=
  ∃ check, FirstFailing (FunctionCheck.Holds function) FunctionCheck.order check ∧
    check.Stops function error journal

end Function

namespace ServiceDefinition

/-- The functions of a service stop at the first that cannot follow those before
it; an error of its body is under its name. -/
def Stops (functions : List Function) : CompileError → Journal → Prop :=
  StopsAt Valid (fun function => (function.name, function.line)) Function.warnings
    (fun function error journal => ∃ cause, function.Stops cause journal ∧
      error = .wrapped .compile function.name cause) functions

end ServiceDefinition

namespace Definition

/-- What a definition has to keep for itself. -/
def Valid : Definition → Prop
  | struct definition => FieldGroup.Valid definition.kind.rules definition.fields
  | typedef _ => True
  | enum definition => EnumDefinition.Valid definition.items
  | service definition => ServiceDefinition.Valid definition.functions

/-- The warnings about a definition. -/
def warnings : Definition → Journal
  | struct definition => FieldGroup.warnings definition.fields
  | service definition => definition.functions.flatMap Function.warnings
  | _ => []

/-- What is written about a definition that compiles: its warnings, and then that
it is compiled. -/
def journal (definition : Definition) : Journal :=
  definition.warnings ++
    [.definitionCompiled definition.name definition.kindWord definition.line]

/-- Where a definition stops, and what is written about it by then.  The error of
a struct or an enum is under the name of that. -/
def Stops (error : CompileError) (journal : Journal) : Definition → Prop
  | struct definition => ∃ cause, error = .wrapped .compile definition.name cause ∧
      FieldGroup.Stops definition.kind.rules definition.fields cause journal
  | typedef _ => False
  | enum definition => ∃ cause, error = .wrapped .compile definition.name cause ∧
      EnumDefinition.Refused definition.items cause ∧ journal = []
  | service definition => ServiceDefinition.Stops definition.functions error journal

end Definition

namespace Module

/-- What the definitions of a unit have to keep, before any is linked. -/
structure Valid (definitions : List Definition) : Prop where
  names : (definitions.map (·.name)).Nodup
  each : ∀ definition ∈ definitions, definition.Valid

/-- The definitions of a unit stop at the first that cannot follow those before
it: at its name, or else in its body. -/
def Stops (definitions : List Definition) : CompileError → Journal → Prop :=
  StopsAt Valid (fun definition => (definition.name, definition.line)) Definition.journal
    (fun definition error journal => definition.Stops error journal) definitions

end Module

end IdlLinker
