import IdlLinker.Graph

/-!
# Positions of objects

Changing what stands at the positions of an object leaves its shape as it was:
names, identifiers, order and defaults are not looked at.  A graph in which one
position is replaced differs from the graph before at that position only, and
marks do not touch objects at all.
-/

namespace IdlLinker

variable {ρ σ τ : Type}

namespace FieldSpec

@[simp]
theorem length_mapTypes (change : Nat → ρ → σ) (position : Nat)
    (fields : List (FieldSpec ρ)) :
    (mapTypes change position fields).length = fields.length := by
  induction fields generalizing position with
  | nil => rfl
  | cons field rest hypothesis => simp [mapTypes, hypothesis]

theorem mapTypes_mapTypes (first : Nat → ρ → σ) (second : Nat → σ → τ) (position : Nat)
    (fields : List (FieldSpec ρ)) :
    mapTypes second position (mapTypes first position fields) =
      mapTypes (fun index type => second index (first index type)) position fields := by
  induction fields generalizing position with
  | nil => rfl
  | cons field rest hypothesis => simp [mapTypes, hypothesis, withType]

theorem mapTypes_eq_self {change : Nat → ρ → ρ} {position : Nat} {fields : List (FieldSpec ρ)}
    (fixed : ∀ index type, (fields.map (·.type))[index]? = some type →
      change (position + index) type = type) :
    mapTypes change position fields = fields := by
  induction fields generalizing position with
  | nil => rfl
  | cons field rest hypothesis =>
      have head : change position field.type = field.type :=
        fixed 0 field.type (by simp)
      have tail : mapTypes change (position + 1) rest = rest := by
        apply hypothesis
        intro index type found
        have moved := fixed (index + 1) type (by simpa using found)
        rwa [Nat.add_assoc, Nat.add_comm 1]
      rw [mapTypes, head, tail]
      rfl

end FieldSpec

namespace FunctionSpec

theorem slots_mapSlots (change : Nat → ρ → σ) (function : FunctionSpec ρ) :
    (function.mapSlots change).slots = function.slots.mapIdx change := by
  rcases function with ⟨name, args, result, oneway⟩
  cases result with
  | none => simp [slots, mapSlots, FieldSpec.map_type_mapTypes]
  | some result =>
      rcases result with ⟨returnType, exceptions⟩
      cases returnType <;>
        simp [slots, mapSlots, FieldSpec.map_type_mapTypes, List.mapIdx_append,
          List.mapIdx_cons, Nat.add_comm, Nat.add_left_comm]

theorem mapSlots_mapSlots (first : Nat → ρ → σ) (second : Nat → σ → τ)
    (function : FunctionSpec ρ) :
    (function.mapSlots first).mapSlots second =
      function.mapSlots fun index slot => second index (first index slot) := by
  rcases function with ⟨name, args, result, oneway⟩
  cases result with
  | none => simp [mapSlots, FieldSpec.mapTypes_mapTypes]
  | some result =>
      rcases result with ⟨returnType, exceptions⟩
      cases returnType <;> simp [mapSlots, FieldSpec.mapTypes_mapTypes]

theorem mapSlots_eq_self {change : Nat → ρ → ρ} {function : FunctionSpec ρ}
    (fixed : ∀ index slot, function.slots[index]? = some slot → change index slot = slot) :
    function.mapSlots change = function := by
  rcases function with ⟨name, args, result, oneway⟩
  have argsFixed : FieldSpec.mapTypes change 0 args = args := by
    apply FieldSpec.mapTypes_eq_self
    intro index type found
    rw [Nat.zero_add]
    apply fixed
    have bound : index < (args.map (·.type)).length :=
      (List.getElem?_eq_some_iff.mp found).1
    simp only [slots]
    rwa [List.getElem?_append_left bound]
  cases result with
  | none => simp [mapSlots, argsFixed]
  | some result =>
      rcases result with ⟨returnType, exceptions⟩
      have exceptionsFixed :
          FieldSpec.mapTypes change (args.length + returnType.toList.length) exceptions =
            exceptions := by
        apply FieldSpec.mapTypes_eq_self
        intro index type found
        apply fixed
        simp only [slots]
        rw [List.getElem?_append_right (by simp; omega),
          List.getElem?_append_right (by simp; omega)]
        simpa [Nat.add_assoc, Nat.add_sub_cancel_left] using found
      cases returnType with
      | none => simpa [mapSlots, argsFixed] using exceptionsFixed
      | some type =>
          have typeFixed : change args.length type = type := by
            apply fixed
            simp [slots]
          simpa [mapSlots, argsFixed, typeFixed] using exceptionsFixed

end FunctionSpec

namespace Spec

/-- The positions of a changed object are the changed positions. -/
theorem slots_mapSlots (change : Nat → ρ → σ) (spec : Spec ρ) :
    (spec.mapSlots change).slots = spec.slots.mapIdx change := by
  cases spec with
  | map key value => rfl
  | list value => rfl
  | set value => rfl
  | struct name kind fields => simp [mapSlots, slots, FieldSpec.map_type_mapTypes]
  | typedef name target => rfl
  | enum name items => rfl
  | function body => exact body.slots_mapSlots change
  | service name parent functions =>
      cases parent with
      | none =>
          apply List.ext_getElem?
          intro index
          simp [mapSlots, slots, Function.comp_def]
      | some parent =>
          apply List.ext_getElem?
          intro index
          cases index <;> simp [mapSlots, slots, Function.comp_def, Nat.add_comm]
  | fieldGroup fields => simp [mapSlots, slots, FieldSpec.map_type_mapTypes]

theorem mapSlots_mapSlots (first : Nat → ρ → σ) (second : Nat → σ → τ) (spec : Spec ρ) :
    (spec.mapSlots first).mapSlots second =
      spec.mapSlots fun index slot => second index (first index slot) := by
  cases spec with
  | map key value => rfl
  | list value => rfl
  | set value => rfl
  | struct name kind fields => simp [mapSlots, FieldSpec.mapTypes_mapTypes]
  | typedef name target => rfl
  | enum name items => rfl
  | function body => simp [mapSlots, FunctionSpec.mapSlots_mapSlots]
  | service name parent functions =>
      cases parent <;> simp [mapSlots, Function.comp_def]
  | fieldGroup fields => simp [mapSlots, FieldSpec.mapTypes_mapTypes]

/-- A change that keeps every position keeps the object. -/
theorem mapSlots_eq_self {change : Nat → ρ → ρ} {spec : Spec ρ}
    (fixed : ∀ index slot, spec.slots[index]? = some slot → change index slot = slot) :
    spec.mapSlots change = spec := by
  cases spec with
  | map key value =>
      have keyFixed : change 0 key = key := fixed 0 key rfl
      have valueFixed : change 1 value = value := fixed 1 value rfl
      rw [mapSlots, keyFixed, valueFixed]
  | list value => rw [mapSlots, fixed 0 value rfl]
  | set value => rw [mapSlots, fixed 0 value rfl]
  | struct name kind fields =>
      rw [mapSlots, FieldSpec.mapTypes_eq_self]
      simpa [slots] using fixed
  | typedef name target => rw [mapSlots, fixed 0 target rfl]
  | enum name items => rfl
  | function body =>
      rw [mapSlots, FunctionSpec.mapSlots_eq_self]
      exact fixed
  | service name parent functions =>
      have functionsFixed :
          (functions.mapIdx fun index entry =>
            (entry.1, change (parent.toList.length + index) entry.2)) = functions := by
        apply List.ext_getElem?
        intro index
        rw [List.getElem?_mapIdx]
        cases found : functions[index]? with
        | none => rfl
        | some entry =>
            have entryFixed : change (parent.toList.length + index) entry.2 = entry.2 := by
              apply fixed
              rw [slots, List.getElem?_append_right (by omega)]
              simp [found]
            simp [entryFixed]
      cases parent with
      | none => simpa [mapSlots] using functionsFixed
      | some parent =>
          have parentFixed : change 0 parent = parent := fixed 0 parent rfl
          simpa [mapSlots, parentFixed] using functionsFixed
  | fieldGroup fields =>
      rw [mapSlots, FieldSpec.mapTypes_eq_self]
      simpa [slots] using fixed

@[simp]
theorem slots_setSlot (spec : Spec ρ) (position : Nat) (value : ρ) :
    (spec.setSlot position value).slots = spec.slots.set position value := by
  rw [setSlot, slots_mapSlots]
  apply List.ext_getElem?
  intro index
  rw [List.getElem?_mapIdx, List.getElem?_set]
  by_cases same : position = index
  · subst same
    cases found : spec.slots[position]? with
    | none => simpa using found
    | some slot => simp [(List.getElem?_eq_some_iff.mp found).1]
  · rw [if_neg same]
    simp [show ¬ index = position from fun equal => same equal.symm]

/-- Storing what a position holds changes nothing. -/
theorem setSlot_eq_self {spec : Spec ρ} {position : Nat} {value : ρ}
    (found : spec.slots[position]? = some value) :
    spec.setSlot position value = spec := by
  apply mapSlots_eq_self
  intro index slot slotFound
  by_cases same : index = position
  · subst same
    rw [found] at slotFound
    simpa using slotFound
  · exact if_neg same

/-- All of an object but what stands at its positions. -/
def shape (spec : Spec ρ) : Spec Unit := spec.mapSlots fun _ _ => ()

@[simp]
theorem shape_mapSlots (change : Nat → ρ → σ) (spec : Spec ρ) :
    (spec.mapSlots change).shape = spec.shape := by
  rw [shape, mapSlots_mapSlots, shape]

@[simp]
theorem shape_setSlot (spec : Spec ρ) (position : Nat) (value : ρ) :
    (spec.setSlot position value).shape = spec.shape :=
  shape_mapSlots _ spec

@[simp]
theorem length_slots_shape (spec : Spec ρ) : spec.shape.slots.length = spec.slots.length := by
  rw [shape, slots_mapSlots, List.length_mapIdx]

@[simp]
theorem name?_shape (spec : Spec ρ) : spec.shape.name? = spec.name? := by
  cases spec <;> rfl

@[simp]
theorem ownerAt_shape (spec : Spec ρ) : spec.shape.ownerAt = spec.ownerAt := by
  funext position
  cases spec with
  | service name parent functions => cases parent <;> rfl
  | _ => rfl

theorem length_slots_eq_of_shape {left : Spec ρ} {right : Spec σ}
    (same : left.shape = right.shape) : left.slots.length = right.slots.length := by
  rw [← length_slots_shape left, same, length_slots_shape]

theorem ownerAt_eq_of_shape {left : Spec ρ} {right : Spec σ} (same : left.shape = right.shape) :
    left.ownerAt = right.ownerAt := by
  rw [← ownerAt_shape left, same, ownerAt_shape]

end Spec

namespace Graph

variable (graph : Graph)

@[simp]
theorem object?_mark (id other : ObjectId) : (graph.mark id).object? other = graph.object? other :=
  rfl

@[simp]
theorem slot?_mark (id other : ObjectId) (position : Nat) :
    (graph.mark id).slot? other position = graph.slot? other position :=
  rfl

@[simp]
theorem linked_mark (id : ObjectId) : (graph.mark id).linked = id :: graph.linked := rfl

@[simp]
theorem linked_setSlot (id : ObjectId) (position : Nat) (slot : Slot) :
    (graph.setSlot id position slot).linked = graph.linked := rfl

@[simp]
theorem pending_setSlot (id : ObjectId) (position : Nat) (slot : Slot) :
    (graph.setSlot id position slot).pending = graph.pending := rfl

theorem object?_setSlot (id other : ObjectId) (position : Nat) (slot : Slot) :
    (graph.setSlot id position slot).object? other =
      if other = id then (graph.object? other).map (·.setSlot position slot)
      else graph.object? other := by
  simp only [setSlot, object?, Array.getElem?_modify]
  by_cases same : other = id
  · simp [same]
  · rw [if_neg same, if_neg fun equal => same equal.symm]

theorem object?_setSlot_of_ne {id other : ObjectId} (different : other ≠ id) (position : Nat)
    (slot : Slot) : (graph.setSlot id position slot).object? other = graph.object? other := by
  rw [object?_setSlot, if_neg different]

/-- The shapes of objects do not change when a position is replaced. -/
@[simp]
theorem shape_setSlot (id other : ObjectId) (position : Nat) (slot : Slot) :
    ((graph.setSlot id position slot).object? other).map Spec.shape =
      (graph.object? other).map Spec.shape := by
  rw [object?_setSlot]
  split
  · simp [Function.comp_def]
  · rfl

theorem slot?_setSlot_of_ne {id other : ObjectId} {position index : Nat}
    (elsewhere : ¬(other = id ∧ index = position)) (slot : Slot) :
    (graph.setSlot id position slot).slot? other index = graph.slot? other index := by
  simp only [slot?, object?_setSlot]
  by_cases same : other = id
  · have apart : position ≠ index := fun equal => elsewhere ⟨same, equal.symm⟩
    cases found : graph.object? other with
    | none => simp
    | some spec => simp [same, List.getElem?_set_ne apart]
  · rw [if_neg same]

theorem slot?_setSlot_self {id : ObjectId} {position : Nat} {old : Slot}
    (found : graph.slot? id position = some old) (slot : Slot) :
    (graph.setSlot id position slot).slot? id position = some slot := by
  rcases Option.bind_eq_some_iff.mp found with ⟨spec, object, held⟩
  have bound : position < spec.slots.length := (List.getElem?_eq_some_iff.mp held).1
  simp [slot?, object?_setSlot, object, bound]

/-- Nothing is stored where there is no position. -/
theorem slot?_setSlot_none {id : ObjectId} {position : Nat}
    (absent : graph.slot? id position = none) (slot : Slot) :
    (graph.setSlot id position slot).slot? id position = none := by
  cases object : graph.object? id with
  | none => simp [slot?, object?_setSlot, object]
  | some spec =>
      simp only [slot?, object, Option.bind_some] at absent
      simp [slot?, object?_setSlot, object, List.getElem?_eq_none_iff.mp absent]

/-- After storing, a position holds what was stored there or what it held. -/
theorem slot?_setSlot_cases {id other : ObjectId} {position index : Nat} {slot found : Slot}
    (held : (graph.setSlot id position slot).slot? other index = some found) :
    (other = id ∧ index = position) ∧ found = slot ∨
      ¬(other = id ∧ index = position) ∧ graph.slot? other index = some found := by
  by_cases here : other = id ∧ index = position
  · rcases here with ⟨rfl, rfl⟩
    left
    refine ⟨⟨rfl, rfl⟩, ?_⟩
    cases old : graph.slot? other index with
    | none =>
        rw [graph.slot?_setSlot_none old] at held
        cases held
    | some before =>
        rw [graph.slot?_setSlot_self old] at held
        exact (Option.some.inj held).symm
  · right
    rw [graph.slot?_setSlot_of_ne here] at held
    exact ⟨here, held⟩

/-- Storing what a position holds leaves the graph as it was. -/
theorem setSlot_eq_self {id : ObjectId} {position : Nat} {slot : Slot}
    (found : graph.slot? id position = some slot) : graph.setSlot id position slot = graph := by
  rcases Option.bind_eq_some_iff.mp found with ⟨spec, object, held⟩
  have same : graph.objects.modify id (fun spec => spec.setSlot position slot) = graph.objects := by
    apply Array.ext_getElem?
    intro other
    rw [Array.getElem?_modify]
    split
    · next equal =>
        subst equal
        change graph.objects[id]? = some spec at object
        rw [object, Option.map_some, Spec.setSlot_eq_self held]
    · rfl
  rw [setSlot, same]

end Graph

end IdlLinker
