import IdlLinker.Proofs.Compiled
import IdlLinker.Proofs.Installed
import IdlLinker.Proofs.Related

/-!
# What stands for a definition

A base type stands for itself, a container for an object of its kind, and a
name for what it is said to mean.  So the object of a definition has the shape
that the definition compiles to, and at its positions stands what the
definition writes there.  Objects just made stand for definitions whose names
mean references.
-/

namespace IdlLinker

/-- What a definition writes at a position of its object: a type, the service
that it extends, or a function. -/
inductive Part
  | type (expression : TypeExpression)
  | parent (parent : ServiceParent)
  | function (function : Function)

/-- What a definition writes, in the order of positions. -/
def Definition.parts : Definition → List Part
  | struct definition => definition.fields.map fun field => .type field.type
  | typedef definition => [.type definition.target]
  | enum _ => []
  | service definition => definition.parent.toList.map .parent ++ definition.functions.map .function

/-- The names in a part. -/
def Part.references : Part → List Reference
  | type expression => expression.references
  | parent extended => [extended.reference]
  | function declared => declared.types.flatMap (·.references)

/-- All of a compiled definition but what stands at its positions. -/
def CompiledDefinition.shape : CompiledDefinition → Spec Unit
  | struct name kind fields => (Spec.struct name kind fields).shape
  | typedef name target => (Spec.typedef name target).shape
  | enum name items => .enum name items
  | service spec =>
    .service spec.name (spec.parent.map fun _ => ())
      (spec.functions.map fun function => (function.name, ()))

namespace Graph

/-- A slot stands for a written type. -/
inductive Stands (graph : Graph) (means : Reference → Slot → Prop) :
    TypeExpression → Slot → Prop where
  | base {type : BaseType} {line : Number} :
      Stands graph means (.base type line) (.primitive type)
  | named {name : String} {line : Number} {slot : Slot} (meant : means ⟨.type, name, line⟩ slot) :
      Stands graph means (.named name line) slot
  | map {key value : TypeExpression} {line : Number} {id : ObjectId} {keySlot valueSlot : Slot}
      (object : graph.object? id = some (.map keySlot valueSlot))
      (keyStands : Stands graph means key keySlot)
      (valueStands : Stands graph means value valueSlot) :
      Stands graph means (.map key value line) (.object id)
  | list {value : TypeExpression} {line : Number} {id : ObjectId} {valueSlot : Slot}
      (object : graph.object? id = some (.list valueSlot))
      (valueStands : Stands graph means value valueSlot) :
      Stands graph means (.list value line) (.object id)
  | set {value : TypeExpression} {line : Number} {id : ObjectId} {valueSlot : Slot}
      (object : graph.object? id = some (.set valueSlot))
      (valueStands : Stands graph means value valueSlot) :
      Stands graph means (.set value line) (.object id)

/-- A slot stands for a part of a definition. -/
inductive StandsAt (graph : Graph) (means : Reference → Slot → Prop) : Part → Slot → Prop where
  | type {expression : TypeExpression} {slot : Slot}
      (stands : graph.Stands means expression slot) : StandsAt graph means (.type expression) slot
  | parent {parent : ServiceParent} {slot : Slot} (meant : means parent.reference slot) :
      StandsAt graph means (.parent parent) slot
  | function {function : Function} {compiled : FunctionSpec TypeExpression} {id : ObjectId}
      {body : FunctionSpec Slot} (ended : function.compile.outcome = .ok compiled)
      (object : graph.object? id = some (.function body))
      (shape : (Spec.function body).shape = (Spec.function compiled).shape)
      (stands : List.Forall₂ (graph.Stands means) function.types body.slots) :
      StandsAt graph means (.function function) (.object id)

/-- An object is the one that a definition declares: it has the shape that the
definition compiles to, and what the definition writes stands at its
positions. -/
def Declares (graph : Graph) (means : Reference → Slot → Prop) (definition : Definition)
    (id : ObjectId) : Prop :=
  ∃ compiled spec, definition.compile.outcome = .ok compiled ∧
    graph.object? id = some spec ∧ spec.shape = compiled.shape ∧
      List.Forall₂ (graph.StandsAt means) definition.parts spec.slots

end Graph

namespace Spec

variable {ρ σ : Type}

theorem exists_map_of_shape {spec : Spec σ} {key value : ρ}
    (same : spec.shape = (Spec.map key value).shape) : ∃ left right, spec = .map left right := by
  cases spec with
  | map left right => exact ⟨left, right, rfl⟩
  | _ => cases same

theorem exists_list_of_shape {spec : Spec σ} {value : ρ}
    (same : spec.shape = (Spec.list value).shape) : ∃ item, spec = .list item := by
  cases spec with
  | list item => exact ⟨item, rfl⟩
  | _ => cases same

theorem exists_set_of_shape {spec : Spec σ} {value : ρ}
    (same : spec.shape = (Spec.set value).shape) : ∃ item, spec = .set item := by
  cases spec with
  | set item => exact ⟨item, rfl⟩
  | _ => cases same

theorem exists_function_of_shape {spec : Spec σ} {function : FunctionSpec ρ}
    (same : spec.shape = (Spec.function function).shape) : ∃ body, spec = .function body := by
  cases spec with
  | function body => exact ⟨body, rfl⟩
  | _ => cases same

end Spec

namespace Graph

/-- How what stands in a graph is carried to another: slots turn into slots, so
that base types and objects stay, objects keep their shape while their slots
turn, and what names meant turns into what they mean. -/
structure Carries (before after : Graph) (old new : Reference → Slot → Prop)
    (turns : Slot → Slot → Prop) : Prop where
  primitive : ∀ type slot, turns (.primitive type) slot → slot = .primitive type
  object : ∀ id slot, turns (.object id) slot → slot = .object id
  kept : ∀ id spec, turns (.object id) (.object id) → before.object? id = some spec →
    ∃ changed, after.object? id = some changed ∧ changed.shape = spec.shape ∧
      List.Forall₂ turns spec.slots changed.slots
  meaning : ∀ reference slot turned, old reference slot → turns slot turned → new reference turned

variable {before after : Graph} {old new : Reference → Slot → Prop} {turns : Slot → Slot → Prop}

theorem Stands.carry (carries : Carries before after old new turns) {expression : TypeExpression}
    {slot turned : Slot} (stands : before.Stands old expression slot)
    (turn : turns slot turned) : after.Stands new expression turned := by
  induction stands generalizing turned with
  | base =>
      rw [carries.primitive _ _ turn]
      exact Stands.base
  | named meant => exact Stands.named (carries.meaning _ _ _ meant turn)
  | map object _ _ keyCarried valueCarried =>
      obtain rfl := carries.object _ _ turn
      rcases carries.kept _ _ turn object with ⟨changed, found, shape, slots⟩
      rcases Spec.exists_map_of_shape shape with ⟨left, right, rfl⟩
      rcases slots with _ | ⟨keyTurn, _ | ⟨valueTurn, _⟩⟩
      exact Stands.map found (keyCarried keyTurn) (valueCarried valueTurn)
  | list object _ valueCarried =>
      obtain rfl := carries.object _ _ turn
      rcases carries.kept _ _ turn object with ⟨changed, found, shape, slots⟩
      rcases Spec.exists_list_of_shape shape with ⟨item, rfl⟩
      rcases slots with _ | ⟨valueTurn, _⟩
      exact Stands.list found (valueCarried valueTurn)
  | set object _ valueCarried =>
      obtain rfl := carries.object _ _ turn
      rcases carries.kept _ _ turn object with ⟨changed, found, shape, slots⟩
      rcases Spec.exists_set_of_shape shape with ⟨item, rfl⟩
      rcases slots with _ | ⟨valueTurn, _⟩
      exact Stands.set found (valueCarried valueTurn)

theorem StandsAt.carry (carries : Carries before after old new turns) {part : Part}
    {slot turned : Slot} (stands : before.StandsAt old part slot) (turn : turns slot turned) :
    after.StandsAt new part turned := by
  cases stands with
  | type stands => exact StandsAt.type (stands.carry carries turn)
  | parent meant => exact StandsAt.parent (carries.meaning _ _ _ meant turn)
  | function ended object shape stands =>
      obtain rfl := carries.object _ _ turn
      rcases carries.kept _ _ turn object with ⟨changed, found, same, slots⟩
      rcases Spec.exists_function_of_shape same with ⟨body, rfl⟩
      exact StandsAt.function ended found (same.trans shape)
        (forall₂_compose (fun _ _ _ held turn => held.carry carries turn) stands slots)

theorem StandsAt.types {graph : Graph} {means : Reference → Slot → Prop}
    {expressions : List TypeExpression} {slots : List Slot}
    (stands : List.Forall₂ (graph.Stands means) expressions slots) :
    List.Forall₂ (graph.StandsAt means) (expressions.map .type) slots :=
  List.forall₂_map_left_iff.mpr (stands.imp fun _ _ => StandsAt.type)

theorem Declares.carry (carries : Carries before after old new turns) {definition : Definition}
    {id : ObjectId} (declares : before.Declares old definition id)
    (turn : turns (.object id) (.object id)) : after.Declares new definition id := by
  rcases declares with ⟨compiled, spec, ended, object, shape, stands⟩
  rcases carries.kept id spec turn object with ⟨changed, found, same, slots⟩
  exact ⟨compiled, changed, ended, found, same.trans shape,
    forall₂_compose (fun _ _ _ held turn => held.carry carries turn) stands slots⟩

end Graph

end IdlLinker
