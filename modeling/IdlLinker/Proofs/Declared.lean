import IdlLinker.Proofs.Session
import IdlLinker.Proofs.Stands

/-!
# Objects of definitions

The objects made for a compiled definition stand for what the definition
writes, and its names mean references until something is linked.
-/

namespace IdlLinker

namespace Graph

/-- Before linking a name means a reference. -/
def Written (reference : Reference) (slot : Slot) : Prop := slot = .unresolved reference

variable {before after : Graph}

theorem carries_of_kept (means : Reference → Slot → Prop)
    (kept : ∀ id spec, before.object? id = some spec → after.object? id = some spec) :
    Carries before after means means Eq where
  primitive _ _ same := same.symm
  object _ _ same := same.symm
  kept id spec _ object := ⟨spec, kept id spec object, rfl, List.forall₂_same.mpr fun _ _ => rfl⟩
  meaning _ _ _ meant same := same ▸ meant

theorem object?_of_grows {base : Nat} {named : Reference → Prop}
    (grows : Grows base named before after) (id : ObjectId) (spec : Spec Slot)
    (object : before.object? id = some spec) : after.object? id = some spec := by
  rw [grows.kept id (Array.getElem?_eq_some_iff.mp object).1]
  exact object

theorem object?_add (graph : Graph) (added : Spec Slot) (id : ObjectId) (spec : Spec Slot)
    (object : graph.object? id = some spec) : (graph.add added).2.object? id = some spec := by
  rw [graph.object?_add_of_lt added (Array.getElem?_eq_some_iff.mp object).1]
  exact object

/-- What stands for written types still does when objects are added. -/
theorem Stands.kept_all {expressions : List TypeExpression} {slots : List Slot}
    {means : Reference → Slot → Prop}
    (stands : List.Forall₂ (before.Stands means) expressions slots)
    (kept : ∀ id spec, before.object? id = some spec → after.object? id = some spec) :
    List.Forall₂ (after.Stands means) expressions slots :=
  stands.imp fun _ _ held => held.carry (carries_of_kept means kept) rfl

end Graph

open IdlLinker.Graph

variable (graph : Graph)

theorem TypeExpression.grows_install (expression : TypeExpression) :
    Grows 0 (fun _ => True) graph (expression.install graph).2 :=
  (expression.install_installed (fun _ => True) graph 0 (Nat.zero_le _) (by simp)).toGrows

theorem FieldSpec.grows_installAll (fields : List (FieldSpec TypeExpression)) :
    Grows 0 (fun _ => True) graph (FieldSpec.installAll fields graph).2 :=
  (FieldSpec.installAll_installed (fun _ => True) fields graph 0 (Nat.zero_le _) (by simp)).toGrows

theorem FunctionSpec.grows_installAll (functions : List (FunctionSpec TypeExpression)) :
    Grows 0 (fun _ => True) graph (FunctionSpec.installAll functions graph).2 :=
  (FunctionSpec.installAll_installed (fun _ => True) functions graph 0 (Nat.zero_le _)
    (by simp)).toGrows

/-- The slot made for a written type stands for it. -/
theorem TypeExpression.install_stands (expression : TypeExpression) :
    (expression.install graph).2.Stands Written expression (expression.install graph).1 := by
  induction expression generalizing graph with
  | base type line => exact Stands.base
  | named name line => exact Stands.named rfl
  | map key value line keyStands valueStands =>
      have later := object?_of_grows (value.grows_install (key.install graph).2)
      have added := object?_add (value.install (key.install graph).2).2
        (.map (key.install graph).1 (value.install (key.install graph).2).1)
      apply Stands.map (object?_add_self _ _)
      · exact (keyStands graph).carry
          (carries_of_kept Written fun id spec object => added id spec (later id spec object)) rfl
      · exact (valueStands (key.install graph).2).carry (carries_of_kept Written added) rfl
  | list value line valueStands =>
      apply Stands.list (object?_add_self _ _)
      exact (valueStands graph).carry (carries_of_kept Written (object?_add _ _)) rfl
  | set value line valueStands =>
      apply Stands.set (object?_add_self _ _)
      exact (valueStands graph).carry (carries_of_kept Written (object?_add _ _)) rfl

namespace FieldSpec

theorem installAll_stands (fields : List (FieldSpec TypeExpression)) :
    List.Forall₂ ((FieldSpec.installAll fields graph).2.Stands Written) (fields.map (·.type))
      ((FieldSpec.installAll fields graph).1.map (·.type)) := by
  induction fields generalizing graph with
  | nil => exact List.Forall₂.nil
  | cons field rest hypothesis =>
      have first := field.type.install_stands graph
      have later := object?_of_grows (FieldSpec.grows_installAll (field.type.install graph).2 rest)
      exact List.Forall₂.cons (first.carry (carries_of_kept Written later) rfl)
        (hypothesis (field.type.install graph).2)

/-- Making slots changes nothing else about fields. -/
theorem installAll_shape (fields : List (FieldSpec TypeExpression)) (position : Nat) :
    mapTypes (fun _ _ => ()) position (FieldSpec.installAll fields graph).1 =
      mapTypes (fun _ _ => ()) position fields := by
  induction fields generalizing graph position with
  | nil => rfl
  | cons field rest hypothesis =>
      exact congrArg _ (hypothesis (field.type.install graph).2 (position + 1))

end FieldSpec

/-- The slots made for what a function gives back stand for its types. -/
theorem ResultSpec.install_stands (result : ResultSpec TypeExpression) :
    Grows 0 (fun _ => True) graph (result.install graph).2 ∧
      (result.install graph).1.returnType.map (fun _ => ()) = result.returnType.map (fun _ => ()) ∧
      (∀ position, FieldSpec.mapTypes (fun _ _ => ()) position (result.install graph).1.exceptions =
        FieldSpec.mapTypes (fun _ _ => ()) position result.exceptions) ∧
      List.Forall₂ ((result.install graph).2.Stands Written)
        (result.returnType.toList ++ result.exceptions.map (·.type))
        ((result.install graph).1.returnType.toList ++
          (result.install graph).1.exceptions.map (·.type)) := by
  rcases result with ⟨returnType, exceptions⟩
  cases returnType with
  | none =>
      exact ⟨FieldSpec.grows_installAll graph exceptions, rfl,
        FieldSpec.installAll_shape graph exceptions, FieldSpec.installAll_stands graph exceptions⟩
  | some type =>
      have returned := type.install_stands graph
      have later := FieldSpec.grows_installAll (type.install graph).2 exceptions
      refine ⟨(type.grows_install graph).trans later, rfl,
        FieldSpec.installAll_shape (type.install graph).2 exceptions, List.Forall₂.cons ?_ ?_⟩
      · exact returned.carry (carries_of_kept Written (object?_of_grows later)) rfl
      · exact FieldSpec.installAll_stands (type.install graph).2 exceptions

/-- The object made for a function has its shape and stands for its types. -/
theorem FunctionSpec.install_stands (function : FunctionSpec TypeExpression) :
    ∃ body, (function.install graph).2.object? (function.install graph).1 = some (.function body) ∧
      (Spec.function body).shape = (Spec.function function).shape ∧
        List.Forall₂ ((function.install graph).2.Stands Written) function.slots body.slots := by
  rcases function with ⟨name, args, result, oneway⟩
  have argsStand := FieldSpec.installAll_stands graph args
  have argsShape := FieldSpec.installAll_shape graph args 0
  have argsLength : (FieldSpec.installAll args graph).1.length = args.length := by
    simpa using argsStand.length_eq.symm
  cases result with
  | none =>
      refine ⟨⟨name, (FieldSpec.installAll args graph).1, none, oneway⟩,
        object?_add_self _ _, ?_, ?_⟩
      · simp only [Spec.shape, Spec.mapSlots, FunctionSpec.mapSlots, argsShape, Option.map_none]
      · simp only [FunctionSpec.slots, List.append_nil]
        exact Stands.kept_all argsStand (object?_add _ _)
  | some result =>
      rcases result.install_stands (FieldSpec.installAll args graph).2 with
        ⟨later, returned, exceptions, stands⟩
      refine ⟨⟨name, (FieldSpec.installAll args graph).1,
        some (result.install (FieldSpec.installAll args graph).2).1, oneway⟩,
        object?_add_self _ _, ?_, ?_⟩
      · have lengths :
            (result.install (FieldSpec.installAll args graph).2).1.returnType.toList.length =
              result.returnType.toList.length := by
          have sizes := congrArg (fun made => made.toList.length) returned
          simpa only [Option.toList_map, List.length_map] using sizes
        simp only [Spec.shape, Spec.mapSlots, FunctionSpec.mapSlots, argsShape, Option.map_some,
          returned, argsLength, lengths, exceptions]
      · have added := object?_add (result.install (FieldSpec.installAll args graph).2).2
          (.function ⟨name, (FieldSpec.installAll args graph).1,
            some (result.install (FieldSpec.installAll args graph).2).1, oneway⟩)
        apply List.rel_append
        · exact Stands.kept_all argsStand fun id spec object =>
            added id spec (object?_of_grows later id spec object)
        · exact Stands.kept_all stands added

/-- The objects made for compiled functions stand for the functions. -/
theorem FunctionSpec.installAll_stands {functions : List Function}
    {specs : List (FunctionSpec TypeExpression)}
    (compiled :
      List.Forall₂ (fun function spec => function.compile.outcome = .ok spec) functions specs) :
    (FunctionSpec.installAll specs graph).1.map (·.1) = specs.map (·.name) ∧
      List.Forall₂ ((FunctionSpec.installAll specs graph).2.StandsAt Written)
        (functions.map .function) ((FunctionSpec.installAll specs graph).1.map (·.2)) := by
  induction compiled generalizing graph with
  | nil => exact ⟨rfl, List.Forall₂.nil⟩
  | @cons function spec others rest ended _ hypothesis =>
      rcases spec.install_stands graph with ⟨body, object, shape, stands⟩
      rw [(Function.compile_keeps ended).2] at stands
      have later := object?_of_grows (FunctionSpec.grows_installAll (spec.install graph).2 rest)
      rcases hypothesis (spec.install graph).2 with ⟨names, restStands⟩
      refine ⟨congrArg (spec.name :: ·) names, List.Forall₂.cons ?_ restStands⟩
      exact (StandsAt.function ended object shape stands).carry (carries_of_kept Written later) rfl

theorem Spec.shape_service {ρ : Type} (name : String) (parent : Option ρ)
    (functions : List (String × ρ)) :
    (Spec.service name parent functions).shape =
      .service name (parent.map fun _ => ()) (functions.map fun entry => (entry.1, ())) := by
  simp only [Spec.shape, Spec.mapSlots, Spec.service.injEq, true_and]
  apply List.ext_getElem?
  intro index
  simp

/-- The object made for a compiled definition is the one that it declares. -/
theorem CompiledDefinition.install_declares {definition : Definition}
    {compiled : CompiledDefinition} (ended : definition.compile.outcome = .ok compiled) :
    (compiled.install graph).2.Declares Written definition (compiled.install graph).1 := by
  have keeps := Definition.compile_keeps ended
  cases keeps with
  | @struct definition fields types =>
      have stands := FieldSpec.installAll_stands graph fields
      rw [types] at stands
      refine ⟨_, .struct definition.name definition.kind (FieldSpec.installAll fields graph).1,
        ended, object?_add_self _ _, ?_, ?_⟩
      · simp only [CompiledDefinition.shape, Spec.shape, Spec.mapSlots,
          FieldSpec.installAll_shape graph fields 0]
      · have parts : definition.fields.map (fun field => Part.type field.type) =
            (definition.fields.map (·.type)).map Part.type := by
          simp
        rw [Definition.parts, parts]
        exact StandsAt.types (Stands.kept_all stands (object?_add _ _))
  | @typedef definition =>
      have stands := definition.target.install_stands graph
      refine ⟨_, .typedef definition.name (definition.target.install graph).1, ended,
        object?_add_self _ _, rfl, List.Forall₂.cons ?_ List.Forall₂.nil⟩
      exact StandsAt.type (stands.carry (carries_of_kept Written (object?_add _ _)) rfl)
  | @enum definition items =>
      exact ⟨_, .enum definition.name items, ended, object?_add_self _ _, rfl, List.Forall₂.nil⟩
  | @service definition functions compiled =>
      rcases FunctionSpec.installAll_stands graph compiled with ⟨names, stands⟩
      refine ⟨_, .service definition.name
        (definition.parent.map fun extended : ServiceParent => .unresolved extended.reference)
        (FunctionSpec.installAll functions graph).1, ended, object?_add_self _ _, ?_, ?_⟩
      · rw [Spec.shape_service, CompiledDefinition.shape, Option.map_map]
        have named := congrArg (List.map fun name => (name, ())) names
        simp only [List.map_map, Function.comp_def] at named ⊢
        rw [named]
      · apply List.rel_append
        · cases definition.parent with
          | none => exact List.Forall₂.nil
          | some parent => exact List.Forall₂.cons (StandsAt.parent rfl) List.Forall₂.nil
        · refine stands.imp fun part slot held => ?_
          exact held.carry (carries_of_kept Written (object?_add _ _)) rfl

end IdlLinker
