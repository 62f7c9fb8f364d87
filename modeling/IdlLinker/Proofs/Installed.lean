import IdlLinker.Graph.Install
import IdlLinker.Graph.Reach
import IdlLinker.Mention
import IdlLinker.Proofs.Typed

/-!
# Installed objects

Making objects of compiled definitions only adds to a graph.  The objects added
for one definition hold base types, references that the definition mentions,
and one another, each where it fits.  The last one stands for the definition,
and all others are parts that are reached from it.
-/

namespace IdlLinker

namespace Graph

/-- A slot that fits, leads to no object below a bound, and is a reference only
if that is one of the references expected. -/
structure Placed (graph : Graph) (base : Nat) (named : Reference → Prop) (role : Role)
    (slot : Slot) : Prop where
  fits : graph.fits role slot = true
  above : ∀ child, slot = .object child → base ≤ child
  mentioned : ∀ reference, slot = .unresolved reference → named reference

/-- A graph grows by objects whose positions are placed, each holding earlier
objects only. -/
structure Grows (base : Nat) (named : Reference → Prop) (before after : Graph) : Prop where
  linked : after.linked = before.linked
  pending : after.pending = before.pending
  size : before.objects.size ≤ after.objects.size
  kept : ∀ id, id < before.objects.size → after.object? id = before.object? id
  fresh : ∀ id spec, before.objects.size ≤ id → after.object? id = some spec →
    ∀ position slot, spec.slots[position]? = some slot →
      after.Placed base named (spec.roleAt position) slot ∧
        ∀ child, slot = .object child → child < id

theorem lt_size_of_fits {graph : Graph} {role : Role} {id : ObjectId}
    (fits : graph.fits role (.object id) = true) : id < graph.objects.size := by
  rcases Option.isSome_iff_exists.mp (isSome_of_fits fits) with ⟨spec, object⟩
  exact (Array.getElem?_eq_some_iff.mp object).1

theorem lt_size_of_slot? {graph : Graph} {id : ObjectId} {position : Nat} {slot : Slot}
    (held : graph.slot? id position = some slot) : id < graph.objects.size := by
  rcases Option.bind_eq_some_iff.mp held with ⟨spec, object, _⟩
  exact (Array.getElem?_eq_some_iff.mp object).1

namespace Placed

variable {base : Nat} {named : Reference → Prop} {role : Role} {graph : Graph}

theorem primitive (graph : Graph) (base : Nat) (named : Reference → Prop) (type : BaseType) :
    graph.Placed base named .type (.primitive type) where
  fits := rfl
  above child same := by cases same
  mentioned reference same := by cases same

theorem unresolved (graph : Graph) (base : Nat) {reference : Reference}
    (expected : named reference) :
    graph.Placed base named reference.kind.role (.unresolved reference) where
  fits := by simp [Graph.fits]
  above child same := by cases same
  mentioned other same := by
    cases same
    exact expected

end Placed

namespace Grows

variable {base : Nat} {named : Reference → Prop} {before between after : Graph}

theorem refl (base : Nat) (named : Reference → Prop) (graph : Graph) :
    Grows base named graph graph where
  linked := rfl
  pending := rfl
  size := Nat.le_refl _
  kept _ _ := rfl
  fresh id spec above object := by
    have bound : id < graph.objects.size := (Array.getElem?_eq_some_iff.mp object).1
    exact absurd bound (Nat.not_lt.mpr above)

theorem fits (grows : Grows base named before after) {role : Role} {slot : Slot}
    (fits : before.fits role slot = true) : after.fits role slot = true := by
  cases slot with
  | primitive type => exact fits
  | unresolved reference => exact fits
  | object id =>
      rw [Graph.fits, grows.kept id (lt_size_of_fits fits)]
      exact fits

theorem placed (grows : Grows base named before after) {bound : Nat} {role : Role} {slot : Slot}
    (placed : before.Placed bound named role slot) : after.Placed bound named role slot :=
  ⟨grows.fits placed.fits, placed.above, placed.mentioned⟩

theorem slot?_eq (grows : Grows base named before after) {id : ObjectId}
    (bound : id < before.objects.size) (position : Nat) :
    after.slot? id position = before.slot? id position := by
  rw [slot?, slot?, grows.kept id bound]

theorem trans (first : Grows base named before between) (second : Grows base named between after) :
    Grows base named before after where
  linked := second.linked.trans first.linked
  pending := second.pending.trans first.pending
  size := Nat.le_trans first.size second.size
  kept id bound :=
    (second.kept id (Nat.lt_of_lt_of_le bound first.size)).trans (first.kept id bound)
  fresh id spec above object position slot held := by
    by_cases earlier : id < between.objects.size
    · rw [second.kept id earlier] at object
      rcases first.fresh id spec above object position slot held with ⟨placed, below⟩
      exact ⟨second.placed placed, below⟩
    · exact second.fresh id spec (Nat.le_of_not_lt earlier) object position slot held

theorem reaches (grows : Grows base named before after) {root id : ObjectId}
    (reaches : before.Reaches root id) : after.Reaches root id := by
  refine Relation.ReflTransGen.mono ?_ root id reaches
  rintro holder child ⟨position, held⟩
  exact ⟨position, (grows.slot?_eq (lt_size_of_slot? held) position).trans held⟩

end Grows

theorem object?_add_self (graph : Graph) (spec : Spec Slot) :
    (graph.add spec).2.object? graph.objects.size = some spec := by
  simp [add, object?]

theorem object?_add_of_lt (graph : Graph) (spec : Spec Slot) {id : ObjectId}
    (bound : id < graph.objects.size) : (graph.add spec).2.object? id = graph.object? id := by
  simp [add, object?, Array.getElem?_push, Nat.ne_of_lt bound]

/-- Adding one object whose positions are placed. -/
theorem grows_add {base : Nat} {named : Reference → Prop} {graph : Graph} {spec : Spec Slot}
    (placed : ∀ position slot, spec.slots[position]? = some slot →
      graph.Placed base named (spec.roleAt position) slot) :
    Grows base named graph (graph.add spec).2 where
  linked := rfl
  pending := rfl
  size := by simp [add]
  kept id bound := graph.object?_add_of_lt spec bound
  fresh id other above object position slot held := by
    have bound : id < graph.objects.size + 1 := by
      simpa [add] using (Array.getElem?_eq_some_iff.mp object).1
    obtain rfl : id = graph.objects.size := Nat.le_antisymm (Nat.le_of_lt_succ bound) above
    rw [object?_add_self] at object
    cases object
    rcases placed position slot held with ⟨fits, bounded, mentioned⟩
    refine ⟨⟨?_, bounded, mentioned⟩, ?_⟩
    · cases slot with
      | primitive type => exact fits
      | unresolved reference => exact fits
      | object child =>
          rw [Graph.fits, graph.object?_add_of_lt spec (lt_size_of_fits fits)]
          exact fits
    · rintro child rfl
      exact lt_size_of_fits fits

/-- Parts added for these slots: each slot is placed, no new object stands for
a definition, and every new object is reached from one of the slots. -/
structure Installed (base : Nat) (named : Reference → Prop) (before after : Graph) (role : Role)
    (slots : List Slot) : Prop extends Grows base named before after where
  placedAll : ∀ slot ∈ slots, after.Placed base named role slot
  parts : ∀ id spec, before.objects.size ≤ id → after.object? id = some spec →
    spec.isDefined = false
  covered : ∀ id, before.objects.size ≤ id → id < after.objects.size →
    ∃ child, .object child ∈ slots ∧ after.Reaches child id

/-- Objects added for this one: it is the last, and the others are its parts. -/
structure Rooted (base : Nat) (named : Reference → Prop) (before after : Graph) (role : Option Role)
    (root : ObjectId) : Prop extends Grows base named before after where
  object : ∃ spec, after.object? root = some spec ∧ spec.role? = role
  last : after.objects.size = root + 1
  first : before.objects.size ≤ root
  parts : ∀ id spec, before.objects.size ≤ id → id < root → after.object? id = some spec →
    spec.isDefined = false
  covered : ∀ id, before.objects.size ≤ id → id < after.objects.size → after.Reaches root id

namespace Installed

variable {base : Nat} {named : Reference → Prop} {before between after : Graph} {role : Role}
  {slots others : List Slot}

theorem nil (base : Nat) (named : Reference → Prop) (graph : Graph) (role : Role) :
    Installed base named graph graph role [] where
  toGrows := Grows.refl base named graph
  placedAll := by simp
  parts id spec above object := by
    have bound : id < graph.objects.size := (Array.getElem?_eq_some_iff.mp object).1
    exact absurd bound (Nat.not_lt.mpr above)
  covered id above bound := absurd bound (Nat.not_lt.mpr above)

/-- A slot that is no object needs no objects. -/
theorem single {graph : Graph} {slot : Slot} (placed : graph.Placed base named role slot) :
    Installed base named graph graph role [slot] where
  toGrows := Grows.refl base named graph
  placedAll other member := by
    rwa [List.mem_singleton.mp member]
  parts := (nil base named graph role).parts
  covered id above bound := absurd bound (Nat.not_lt.mpr above)

theorem append (first : Installed base named before between role slots)
    (second : Installed base named between after role others) :
    Installed base named before after role (slots ++ others) where
  toGrows := first.toGrows.trans second.toGrows
  placedAll slot member := by
    rcases List.mem_append.mp member with left | right
    · exact second.toGrows.placed (first.placedAll slot left)
    · exact second.placedAll slot right
  parts id spec above object := by
    by_cases earlier : id < between.objects.size
    · rw [second.kept id earlier] at object
      exact first.parts id spec above object
    · exact second.parts id spec (Nat.le_of_not_lt earlier) object
  covered id above bound := by
    by_cases earlier : id < between.objects.size
    · rcases first.covered id above earlier with ⟨child, member, reaches⟩
      exact ⟨child, List.mem_append_left _ member, second.toGrows.reaches reaches⟩
    · rcases second.covered id (Nat.le_of_not_lt earlier) bound with ⟨child, member, reaches⟩
      exact ⟨child, List.mem_append_right _ member, reaches⟩

/-- The object that holds the slots reaches whatever they reach, and itself. -/
theorem reaches_add (installed : Installed base named before after role slots) {spec : Spec Slot}
    (grows : Grows base named after (after.add spec).2) (held : slots ⊆ spec.slots)
    {id : ObjectId} (above : before.objects.size ≤ id)
    (bound : id < (after.add spec).2.objects.size) :
    (after.add spec).2.Reaches after.objects.size id := by
  by_cases earlier : id < after.objects.size
  · rcases installed.covered id above earlier with ⟨child, member, reaches⟩
    apply Relation.ReflTransGen.head _ (grows.reaches reaches)
    rcases List.getElem?_of_mem (held member) with ⟨position, found⟩
    refine ⟨position, ?_⟩
    rw [slot?, object?_add_self]
    exact found
  · have last : id = after.objects.size := by
      rw [Graph.add, Array.size_push] at bound
      exact Nat.le_antisymm (Nat.le_of_lt_succ bound) (Nat.le_of_not_lt earlier)
    rw [last]
    exact Relation.ReflTransGen.refl

/-- Slots become one object that holds them. -/
theorem root (installed : Installed base named before after role slots) {spec : Spec Slot}
    (held : slots ⊆ spec.slots)
    (placed : ∀ position slot, spec.slots[position]? = some slot →
      after.Placed base named (spec.roleAt position) slot) :
    Rooted base named before (after.add spec).2 spec.role? after.objects.size where
  toGrows := installed.toGrows.trans (grows_add placed)
  object := ⟨spec, after.object?_add_self spec, rfl⟩
  last := by simp [Graph.add]
  first := installed.size
  parts id other above below object := by
    rw [after.object?_add_of_lt spec below] at object
    exact installed.parts id other above object
  covered _ above bound := installed.reaches_add (grows_add placed) held above bound

/-- What holds these slots, and asks for one role, is placed itself. -/
theorem placed_of_slots (installed : Installed base named before after role slots)
    {spec : Spec Slot} (same : spec.slots = slots) (uniform : ∀ index, spec.roleAt index = role)
    (position : Nat) (slot : Slot) (found : spec.slots[position]? = some slot) :
    after.Placed base named (spec.roleAt position) slot := by
  rw [uniform position]
  exact installed.placedAll slot (same ▸ List.mem_of_getElem? found)

/-- Slots of one role become one object that holds them. -/
theorem rootUniform (installed : Installed base named before after role slots) {spec : Spec Slot}
    (same : spec.slots = slots) (uniform : ∀ index, spec.roleAt index = role) :
    Rooted base named before (after.add spec).2 spec.role? after.objects.size :=
  installed.root (same ▸ List.Subset.refl _) (installed.placed_of_slots same uniform)

/-- Slots of one role become one more part that holds them. -/
theorem add (installed : Installed base named before after role slots) {spec : Spec Slot}
    {becomes : Role} (above : base ≤ before.objects.size) (kind : spec.role? = some becomes)
    (part : spec.isDefined = false) (same : spec.slots = slots)
    (uniform : ∀ index, spec.roleAt index = role) :
    Installed base named before (after.add spec).2 becomes [.object after.objects.size] where
  toGrows := installed.toGrows.trans (grows_add (installed.placed_of_slots same uniform))
  placedAll slot member := by
    rw [List.mem_singleton.mp member]
    refine ⟨by simp [Graph.fits, object?_add_self, kind], ?_, ?_⟩
    · intro child equal
      cases equal
      exact Nat.le_trans above installed.size
    · intro reference equal
      cases equal
  parts id other old object := by
    by_cases earlier : id < after.objects.size
    · rw [after.object?_add_of_lt spec earlier] at object
      exact installed.parts id other old object
    · have bound : id < after.objects.size + 1 := by
        simpa [Graph.add] using (Array.getElem?_eq_some_iff.mp object).1
      obtain rfl : id = after.objects.size :=
        Nat.le_antisymm (Nat.le_of_lt_succ bound) (Nat.le_of_not_lt earlier)
      rw [object?_add_self] at object
      cases object
      exact part
  covered id old bound :=
    ⟨after.objects.size, List.mem_singleton_self _,
      installed.reaches_add (grows_add (installed.placed_of_slots same uniform))
        (same ▸ List.Subset.refl _) old bound⟩

end Installed

end Graph

open IdlLinker.Graph

variable (named : Reference → Prop)

/-- The objects of a written type. -/
theorem TypeExpression.install_installed (expression : TypeExpression) (graph : Graph) (base : Nat)
    (above : base ≤ graph.objects.size)
    (expected : ∀ reference ∈ expression.references, named reference) :
    Installed base named graph (expression.install graph).2 .type
      [(expression.install graph).1] := by
  induction expression generalizing graph with
  | base type line => exact Installed.single (Placed.primitive graph base named type)
  | named name line =>
      exact Installed.single (Placed.unresolved graph base (expected _ (List.mem_singleton_self _)))
  | map key value line keyInstalled valueInstalled =>
      have first := keyInstalled graph above
        fun reference member => expected reference (List.mem_append_left _ member)
      have second := valueInstalled (key.install graph).2 (Nat.le_trans above first.size)
        fun reference member => expected reference (List.mem_append_right _ member)
      exact (first.append second).add above rfl rfl rfl fun _ => rfl
  | list value line valueInstalled =>
      have first := valueInstalled graph above expected
      exact first.add above rfl rfl rfl fun _ => rfl
  | set value line valueInstalled =>
      have first := valueInstalled graph above expected
      exact first.add above rfl rfl rfl fun _ => rfl

/-- The objects of the types of fields. -/
theorem FieldSpec.installAll_installed (fields : List (FieldSpec TypeExpression)) (graph : Graph)
    (base : Nat) (above : base ≤ graph.objects.size)
    (expected : ∀ type ∈ fields.map (·.type), ∀ reference ∈ type.references, named reference) :
    Installed base named graph (FieldSpec.installAll fields graph).2 .type
      ((FieldSpec.installAll fields graph).1.map (·.type)) := by
  induction fields generalizing graph with
  | nil => exact Installed.nil base named graph .type
  | cons field rest hypothesis =>
      have first := field.type.install_installed named graph base above
        (expected field.type List.mem_cons_self)
      have others := hypothesis (field.type.install graph).2 (Nat.le_trans above first.size)
        fun type member => expected type (List.mem_cons_of_mem _ member)
      exact first.append others

/-- The objects of what a function gives back. -/
theorem ResultSpec.install_installed (result : ResultSpec TypeExpression) (graph : Graph)
    (base : Nat) (above : base ≤ graph.objects.size)
    (expected : ∀ type ∈ result.returnType.toList ++ result.exceptions.map (·.type),
      ∀ reference ∈ type.references, named reference) :
    Installed base named graph (result.install graph).2 .type
      ((result.install graph).1.returnType.toList ++
        (result.install graph).1.exceptions.map (·.type)) := by
  rcases result with ⟨returnType, exceptions⟩
  cases returnType with
  | none => exact FieldSpec.installAll_installed named exceptions graph base above expected
  | some type =>
      have first := type.install_installed named graph base above (expected type List.mem_cons_self)
      have others := FieldSpec.installAll_installed named exceptions (type.install graph).2 base
        (Nat.le_trans above first.size)
        fun other member => expected other (List.mem_cons_of_mem _ member)
      exact first.append others

/-- The objects of a function, which is the last of them. -/
theorem FunctionSpec.install_installed (function : FunctionSpec TypeExpression) (graph : Graph)
    (base : Nat) (above : base ≤ graph.objects.size)
    (expected : ∀ type ∈ function.slots, ∀ reference ∈ type.references, named reference) :
    Installed base named graph (function.install graph).2 .function
      [.object (function.install graph).1] := by
  rcases function with ⟨name, args, result, oneway⟩
  have first := FieldSpec.installAll_installed named args graph base above
    fun type member => expected type (List.mem_append_left _ member)
  cases result with
  | none =>
      have held : (Spec.function ⟨name, (FieldSpec.installAll args graph).1, none, oneway⟩).slots =
          (FieldSpec.installAll args graph).1.map (·.type) := by
        simp [Spec.slots, FunctionSpec.slots]
      exact first.add above rfl rfl held fun _ => rfl
  | some result =>
      have second := result.install_installed named (FieldSpec.installAll args graph).2 base
        (Nat.le_trans above first.size)
          fun type member => expected type (List.mem_append_right _ member)
      exact (first.append second).add above rfl rfl rfl fun _ => rfl

theorem FunctionSpec.installAll_installed (functions : List (FunctionSpec TypeExpression))
    (graph : Graph) (base : Nat) (above : base ≤ graph.objects.size)
    (expected : ∀ type ∈ functions.flatMap (·.slots), ∀ reference ∈ type.references,
      named reference) :
    Installed base named graph (FunctionSpec.installAll functions graph).2 .function
      ((FunctionSpec.installAll functions graph).1.map (·.2)) := by
  induction functions generalizing graph with
  | nil => exact Installed.nil base named graph .function
  | cons function rest hypothesis =>
      have first := function.install_installed named graph base above
        fun type member => expected type (List.mem_append_left _ member)
      have others := hypothesis (function.install graph).2 (Nat.le_trans above first.size)
        fun type member => expected type (List.mem_append_right _ member)
      exact first.append others

/-- The objects of a service, which is the last of them. -/
theorem ServiceSpec.install_rooted (service : ServiceSpec) (graph : Graph) (base : Nat)
    (above : base ≤ graph.objects.size)
    (expected : ∀ reference ∈ (CompiledDefinition.service service).references, named reference) :
    Rooted base named graph (service.install graph).2 (some .service)
      (service.install graph).1 := by
  rcases service with ⟨name, parent, functions⟩
  have first := FunctionSpec.installAll_installed named functions graph base above
    fun type member reference held =>
      expected reference (List.mem_append_left _ (List.mem_flatMap.mpr ⟨type, member, held⟩))
  apply first.root (List.subset_append_right _ _)
  intro position slot held
  cases parent with
  | none =>
      apply first.placedAll slot
      simpa [Spec.slots] using List.mem_of_getElem? held
  | some parent =>
      cases position with
      | zero =>
          cases held
          exact Placed.unresolved _ base
            (expected parent.reference (List.mem_append_right _ (List.mem_singleton_self _)))
      | succ position =>
          simp only [Spec.slots, Option.map_some, Option.toList_some, List.cons_append,
            List.nil_append, List.getElem?_cons_succ] at held
          exact first.placedAll slot (List.mem_of_getElem? held)

/-- The objects of a definition, which is the last of them. -/
theorem CompiledDefinition.install_rooted (compiled : CompiledDefinition) (graph : Graph)
    (base : Nat) (above : base ≤ graph.objects.size)
    (expected : ∀ reference ∈ compiled.references, named reference) :
    Rooted base named graph (compiled.install graph).2 (some compiled.kind.role)
      (compiled.install graph).1 := by
  have inside : ∀ type ∈ compiled.types, ∀ reference ∈ type.references, named reference :=
    fun type member reference held =>
      expected reference (List.mem_append_left _ (List.mem_flatMap.mpr ⟨type, member, held⟩))
  cases compiled with
  | struct name kind fields =>
      have first := FieldSpec.installAll_installed named fields graph base above inside
      exact first.rootUniform rfl fun _ => rfl
  | typedef name target =>
      have first := target.install_installed named graph base above
        (inside target (List.mem_singleton_self _))
      exact first.rootUniform rfl fun _ => rfl
  | enum name items =>
      have first := Installed.nil base named graph .type
      exact first.rootUniform rfl fun _ => rfl
  | service spec => exact spec.install_rooted named graph base above expected

/-- The objects of a field group that belongs to nothing else, which is the
last of them. -/
theorem FieldGroup.install_rooted (fields : List (FieldSpec TypeExpression)) (graph : Graph)
    (base : Nat) (above : base ≤ graph.objects.size)
    (expected : ∀ type ∈ fields.map (·.type), ∀ reference ∈ type.references, named reference) :
    Rooted base named graph (FieldGroup.install fields graph).2 none
      (FieldGroup.install fields graph).1 := by
  have first := FieldSpec.installAll_installed named fields graph base above expected
  exact first.rootUniform rfl fun _ => rfl

end IdlLinker
