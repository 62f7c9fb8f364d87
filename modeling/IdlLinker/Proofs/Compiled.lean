import Mathlib.Data.List.Forall2
import IdlLinker.Mention
import IdlLinker.Module
import IdlLinker.Proofs.Record

/-!
# What compiling keeps

A compilation that succeeds keeps the name, the kind and every written type of
a definition, in order.  The definitions of a unit compile together when their
names are distinct and each compiles on its own.
-/

namespace IdlLinker

namespace Compilation

variable {α β : Type}

@[simp]
theorem outcome_pure (value : α) : (pure value : Compilation α).outcome = .ok value := rfl

@[simp]
theorem outcome_log (entry : JournalEntry) : (log entry).outcome = .ok () := rfl

@[simp]
theorem outcome_ofExcept (outcome : Except CompileError α) :
    (ofExcept outcome).outcome = outcome := rfl

/-- A sequence of two steps succeeds when both steps do. -/
@[simp]
theorem outcome_bind_eq_ok {first : Compilation α} {next : α → Compilation β} {value : β} :
    (first >>= next).outcome = .ok value ↔
      ∃ middle, first.outcome = .ok middle ∧ (next middle).outcome = .ok value := by
  change (Compilation.bind first next).outcome = _ ↔ _
  unfold Compilation.bind
  cases first.outcome <;> simp

@[simp]
theorem outcome_ownedBy_eq_ok {compilation : Compilation α} {owner : String} {value : α} :
    (compilation.ownedBy owner).outcome = .ok value ↔ compilation.outcome = .ok value := by
  unfold ownedBy withOwner
  cases compilation.outcome <;> simp [Except.mapError]

end Compilation

namespace FieldGroup

/-- What compiling a field does when it succeeds. -/
theorem compileField_eq_ok {rules : FieldRules} {taken : Taken} {field : Field}
    {made : FieldSpec TypeExpression × Taken}
    (ended : (compileField rules taken field).outcome = .ok made) :
    ∃ claimed id ids, taken.names.claim field.name field.line = .ok claimed ∧
      (chooseId taken field).outcome = .ok id ∧ claimId taken field id = .ok ids ∧
      checkRules rules field = .ok () ∧
      made =
        ({ id, name := field.name, type := field.type,
           required := field.requiredness == some .required,
           defaultValue := field.defaultValue },
         { names := claimed, ids,
           implicitCount := taken.implicitCount + if field.id.isNone then 1 else 0 }) := by
  simp only [compileField, Compilation.outcome_bind_eq_ok, Compilation.outcome_pure,
    Compilation.outcome_ofExcept, Except.ok.injEq] at ended
  rcases ended with ⟨claimed, named, id, chosen, ids, taking, _, checked, rfl⟩
  exact ⟨claimed, id, ids, named, chosen, taking, checked, rfl⟩

theorem type_compileField {rules : FieldRules} {taken : Taken} {field : Field}
    {made : FieldSpec TypeExpression × Taken}
    (ended : (compileField rules taken field).outcome = .ok made) :
    made.1.type = field.type := by
  rcases compileField_eq_ok ended with ⟨_, _, _, _, _, _, _, rfl⟩
  rfl

theorem types_compileAfter {rules : FieldRules} {taken : Taken} {fields : List Field}
    {specs : List (FieldSpec TypeExpression)}
    (ended : (compileAfter rules taken fields).outcome = .ok specs) :
    specs.map (·.type) = fields.map (·.type) := by
  induction fields generalizing taken specs with
  | nil =>
      cases ended
      rfl
  | cons field rest hypothesis =>
      simp only [compileAfter, Compilation.outcome_bind_eq_ok, Compilation.outcome_pure,
        Except.ok.injEq] at ended
      rcases ended with ⟨⟨spec, onward⟩, first, others, restEnded, rfl⟩
      rw [List.map_cons, List.map_cons, hypothesis restEnded, ← type_compileField first]

/-- A field group keeps its written types. -/
theorem types_compile {fields : List Field} {rules : FieldRules}
    {specs : List (FieldSpec TypeExpression)}
    (ended : (compile fields rules).outcome = .ok specs) :
    specs.map (·.type) = fields.map (·.type) :=
  types_compileAfter ended

end FieldGroup

/-- A function keeps its name and its written types. -/
theorem Function.compile_keeps {function : Function} {spec : FunctionSpec TypeExpression}
    (ended : function.compile.outcome = .ok spec) :
    spec.name = function.name ∧ spec.slots = function.types := by
  simp only [Function.compile, Compilation.outcome_bind_eq_ok, Compilation.outcome_pure,
    Except.ok.injEq] at ended
  rcases ended with ⟨checked, _, args, argsEnded, exceptions, exceptionsEnded, rfl⟩
  refine ⟨rfl, ?_⟩
  simp only [FunctionSpec.slots, Function.types, ← FieldGroup.types_compile argsEnded,
    ← FieldGroup.types_compile exceptionsEnded, List.append_assoc]
  cases returned : function.returnType with
  | some type => simp [resultSpec]
  | none => cases exceptions <;> simp [resultSpec]

namespace ServiceDefinition

/-- Functions compile each on its own, in order. -/
theorem forall₂_compileFunctions {names : Namespace} {functions : List Function}
    {specs : List (FunctionSpec TypeExpression)}
    (ended : (compileFunctions names functions).outcome = .ok specs) :
    List.Forall₂ (fun function spec => function.compile.outcome = .ok spec) functions specs := by
  induction functions generalizing names specs with
  | nil =>
      cases ended
      exact List.Forall₂.nil
  | cons function rest hypothesis =>
      simp only [compileFunctions, Compilation.outcome_bind_eq_ok, Compilation.outcome_pure,
        Compilation.outcome_ownedBy_eq_ok, Except.ok.injEq] at ended
      rcases ended with ⟨claimed, _, spec, first, others, restEnded, rfl⟩
      exact List.Forall₂.cons first (hypothesis restEnded)

theorem slots_of_forall₂ {functions : List Function} {specs : List (FunctionSpec TypeExpression)}
    (compiled :
      List.Forall₂ (fun function spec => function.compile.outcome = .ok spec) functions specs) :
    specs.flatMap (·.slots) = functions.flatMap (·.types) := by
  induction compiled with
  | nil => rfl
  | cons first _ hypothesis =>
      rw [List.flatMap_cons, List.flatMap_cons, hypothesis, (Function.compile_keeps first).2]

end ServiceDefinition

namespace Definition

/-- Whether a definition is one of a type or of a service. -/
def kind : Definition → EntityKind
  | service _ => .service
  | _ => .type

/-- What compiling makes of a definition: nothing but field groups and enum items
is computed. -/
inductive Keeps : Definition → CompiledDefinition → Prop where
  | struct {definition : StructDefinition} {fields : List (FieldSpec TypeExpression)}
      (types : fields.map (·.type) = definition.fields.map (·.type)) :
      Keeps (.struct definition) (.struct definition.name definition.kind fields)
  | typedef {definition : TypedefDefinition} :
      Keeps (.typedef definition) (.typedef definition.name definition.target)
  | enum {definition : EnumDefinition} {items : List EnumItemSpec} :
      Keeps (.enum definition) (.enum definition.name items)
  | service {definition : ServiceDefinition} {functions : List (FunctionSpec TypeExpression)}
      (compiled : List.Forall₂ (fun function spec => function.compile.outcome = .ok spec)
        definition.functions functions) :
      Keeps (.service definition) (.service ⟨definition.name, definition.parent, functions⟩)

theorem compile_keeps {definition : Definition} {compiled : CompiledDefinition}
    (ended : definition.compile.outcome = .ok compiled) : Keeps definition compiled := by
  cases definition with
  | struct definition =>
      simp only [compile, StructDefinition.compile, Compilation.outcome_bind_eq_ok,
        Compilation.outcome_pure, Compilation.outcome_ownedBy_eq_ok, Except.ok.injEq] at ended
      rcases ended with ⟨fields, compiled, rfl⟩
      exact Keeps.struct (FieldGroup.types_compile compiled)
  | typedef definition =>
      cases ended
      exact Keeps.typedef
  | enum definition =>
      simp only [compile, Compilation.outcome_bind_eq_ok, Compilation.outcome_pure,
        Except.ok.injEq] at ended
      rcases ended with ⟨items, _, rfl⟩
      exact Keeps.enum
  | service definition =>
      simp only [compile, ServiceDefinition.compile, Compilation.outcome_bind_eq_ok,
        Compilation.outcome_pure, Except.ok.injEq] at ended
      rcases ended with ⟨_, ⟨functions, compiled, rfl⟩, rfl⟩
      exact Keeps.service (ServiceDefinition.forall₂_compileFunctions compiled)

variable {definition : Definition} {compiled : CompiledDefinition}

theorem Keeps.kind (keeps : Keeps definition compiled) : compiled.kind = definition.kind := by
  cases keeps <;> rfl

/-- A definition mentions what its compiled form does. -/
theorem Keeps.references (keeps : Keeps definition compiled) :
    compiled.references = definition.references := by
  have types : compiled.types = definition.types := by
    cases keeps with
    | struct types => exact types
    | typedef => rfl
    | enum => rfl
    | service functions => exact ServiceDefinition.slots_of_forall₂ functions
  have parent : compiled.parent? = definition.parent? := by
    cases keeps <;> rfl
  rw [CompiledDefinition.references, types, parent, Definition.references]

end Definition

namespace Namespace

theorem line?_eq_none_iff {names : Namespace} {name : String} :
    names.line? name = none ↔ name ∉ names.declared.map (·.1) :=
  Record.get?_eq_none_iff

/-- A name is claimed when it was not declared before. -/
theorem claim_eq_ok_iff {names claimed : Namespace} {name : String} {line : Number} :
    names.claim name line = .ok claimed ↔
      name ∉ names.declared.map (·.1) ∧ claimed = ⟨names.declared ++ [(name, line)]⟩ := by
  rw [← line?_eq_none_iff, claim]
  cases names.line? name <;> simp [eq_comm]

end Namespace

namespace Module

/-- A compiled unit of a definition. -/
def Compiles (definition : Definition) (unit : String × CompiledDefinition) : Prop :=
  unit.1 = definition.name ∧ definition.compile.outcome = .ok unit.2

theorem compileAfter_eq_ok_iff {names : Namespace} {definitions : List Definition}
    {units : List (String × CompiledDefinition)} :
    (compileAfter names definitions).outcome = .ok units ↔
      (∀ definition ∈ definitions, definition.name ∉ names.declared.map (·.1)) ∧
        (definitions.map (·.name)).Nodup ∧ List.Forall₂ Compiles definitions units := by
  induction definitions generalizing names units with
  | nil => simp [compileAfter, eq_comm]
  | cons definition rest hypothesis =>
      simp only [compileAfter, Compilation.outcome_bind_eq_ok, Compilation.outcome_pure,
        Compilation.outcome_ofExcept, Compilation.outcome_log, Namespace.claim_eq_ok_iff,
        hypothesis, Except.ok.injEq, List.map_cons, List.nodup_cons]
      constructor
      · rintro ⟨claimed, ⟨unclaimed, rfl⟩, compiled, ended, _, _, others,
          ⟨fresh, distinct, made⟩, rfl⟩
        simp only [List.map_append, List.mem_append, not_or] at fresh
        refine ⟨?_, ⟨?_, distinct⟩, List.Forall₂.cons ⟨rfl, ended⟩ made⟩
        · intro other member
          rcases List.mem_cons.mp member with rfl | later
          · exact unclaimed
          · exact (fresh other later).1
        · intro repeated
          rcases List.mem_map.mp repeated with ⟨other, later, same⟩
          exact (fresh other later).2 (by simp [same])
      · rintro ⟨fresh, ⟨different, distinct⟩, made⟩
        cases made with
        | @cons _ unit _ others here later =>
            rcases unit with ⟨name, compiled⟩
            rcases here with ⟨rfl, ended⟩
            refine ⟨_, ⟨fresh definition List.mem_cons_self, rfl⟩, compiled, ended, (), trivial,
              others, ⟨?_, distinct, later⟩, rfl⟩
            intro other member
            simp only [List.map_append, List.mem_append, not_or]
            refine ⟨fresh other (List.mem_cons_of_mem _ member), ?_⟩
            intro same
            apply different
            exact List.mem_map.mpr ⟨other, member, by simpa using same⟩

/-- The definitions of a unit compile when their names are distinct and each
compiles on its own. -/
theorem compileAfter_empty_eq_ok_iff {definitions : List Definition}
    {units : List (String × CompiledDefinition)} :
    (compileAfter {} definitions).outcome = .ok units ↔
      (definitions.map (·.name)).Nodup ∧ List.Forall₂ Compiles definitions units := by
  simp [compileAfter_eq_ok_iff]

end Module

end IdlLinker
