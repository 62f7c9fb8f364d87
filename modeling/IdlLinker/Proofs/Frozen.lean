import IdlLinker.Proofs.LinkedSpecs
import IdlLinker.Proofs.Progress

/-!
# Linked specs are frozen

Linking turns references into objects and leaves everything else of a spec as
it was compiled.  A linked spec has no references left, and neither has
anything it leads to.  So no later call changes any of it, and linking it again
does nothing in any scope, also in one that registers other specs under the
same names.
-/

namespace IdlLinker

/-- What is asked to be linked by a call. -/
def LinkCall.subject : LinkCall → Slot
  | spec slot => slot
  | type slot => slot
  | service id => .object id
  | function id => .object id
  | fields id _ => .object id

namespace Spec

/-- An object is its shape and what stands at its positions. -/
theorem eq_of_shape_of_slots {left right : Spec Slot} (shape : left.shape = right.shape)
    (slots : left.slots = right.slots) : left = right := by
  have refill (spec : Spec Slot) : spec.shape.mapSlots
      (fun position _ => (spec.slots[position]?).getD (.primitive .bool)) = spec := by
    rw [Spec.shape, mapSlots_mapSlots]
    apply mapSlots_eq_self
    intro position slot held
    rw [held, Option.getD_some]
  rw [← refill left, shape, slots, refill right]

/-- What linking may change of an object: references become objects.  All else
stays as it was compiled, and a service has the functions it had. -/
structure Kept (before after : Spec Slot) : Prop where
  shape : after.shape = before.shape
  slots : ∀ position : Nat, Advances before.slots[position]? after.slots[position]?
  functions : ∀ name parent functions, before = .service name parent functions →
    ∃ changed, after = .service name changed functions

end Spec

namespace Graph

/-- Every object is still there, and only references of it have changed. -/
def Keeps (before after : Graph) : Prop :=
  ∀ id spec, before.object? id = some spec →
    ∃ changed, after.object? id = some changed ∧ spec.Kept changed

/-- Linking a slot again, in any scope and in any way, changes nothing, runs no
body and gives the slot back. -/
structure Inert (graph : Graph) (slot : Slot) : Prop where
  linkSlot : ∀ scope, graph.linkSlot scope slot = ⟨graph, .ok slot, []⟩
  linkSpec : ∀ scope, graph.linkSpec scope slot = ⟨graph, .ok slot, []⟩
  perform : ∀ scope (call : LinkCall), call.subject = slot →
    call.perform graph scope = ⟨graph, .ok (), []⟩

/-- A graph and one that later calls have made of it. -/
structure Later (before after : Graph) : Prop where
  linked : before.linked ⊆ after.linked
  objects : ∀ id spec, before.object? id = some spec →
    ∃ changed, after.object? id = some changed ∧ changed.shape = spec.shape ∧
      ∀ position : Nat, Advances spec.slots[position]? changed.slots[position]?

namespace Later

variable {before between after : Graph} {id : ObjectId}

theorem refl (graph : Graph) : Later graph graph :=
  ⟨List.Subset.refl _, fun _ spec object => ⟨spec, object, rfl, fun _ => Advances.refl _⟩⟩

theorem trans (first : Later before between) (second : Later between after) :
    Later before after where
  linked := List.Subset.trans first.linked second.linked
  objects id spec object := by
    rcases first.objects id spec object with ⟨middle, middleObject, middleShape, middleSlots⟩
    rcases second.objects id middle middleObject with ⟨changed, found, shape, slots⟩
    exact ⟨changed, found, shape.trans middleShape,
      fun position => (middleSlots position).trans (slots position)⟩

/-- A marked object has no references left that could change. -/
theorem object?_eq (later : Later before after) (closed : before.Closed)
    (marked : id ∈ before.linked) {spec : Spec Slot} (object : before.object? id = some spec) :
    after.object? id = some spec := by
  rcases later.objects id spec object with ⟨changed, found, shape, slots⟩
  have same : changed.slots = spec.slots := by
    apply List.ext_getElem?
    intro position
    rcases slots position with kept | ⟨reference, next, held, _⟩
    · exact kept
    · exfalso
      apply closed.slot?_ne_unresolved marked position reference
      rw [slot?, object, Option.bind_some, held]
  rw [found, Spec.eq_of_shape_of_slots shape same]

/-- The functions of a service are objects from the start, so they stay. -/
theorem functions_eq (later : Later before after) (typed : before.WellTyped) {name : String}
    {parent : Option Slot} {functions : List (String × Slot)}
    (object : before.object? id = some (.service name parent functions)) :
    ∃ changed, after.object? id = some (.service name changed functions) := by
  rcases later.objects id _ object with ⟨changed, found, shape, slots⟩
  cases changed with
  | service otherName otherParent others =>
      simp only [Spec.shape, Spec.mapSlots, Spec.service.injEq] at shape
      rcases shape with ⟨rfl, parents, keys⟩
      have count : otherParent.toList.length = parent.toList.length := by
        cases otherParent <;> cases parent <;> simp_all
      have names : others.map Prod.fst = functions.map Prod.fst := by
        apply List.ext_getElem?
        intro index
        have entries := congrArg (fun entries => (entries[index]?).map Prod.fst) keys
        simpa [Function.comp_def] using entries
      -- only references advance, and where a function is asked for there is none
      have values : others.map Prod.snd = functions.map Prod.snd := by
        apply List.ext_getElem?
        intro index
        rw [List.getElem?_map, List.getElem?_map]
        have advances := slots (parent.toList.length + index)
        rw [Spec.slots_function, ← count, Spec.slots_function] at advances
        cases held : functions[index]? with
        | none =>
            have length : others.length = functions.length := by
              simpa using congrArg List.length names
            rw [List.getElem?_eq_none_iff, ← length, ← List.getElem?_eq_none_iff] at held
            rw [held]
        | some entry =>
            have asked := typed id _ (parent.toList.length + index) entry.2 object
              (by rw [Spec.slots_function, held, Option.map_some])
            rw [Spec.roleAt_function] at asked
            rcases exists_object_of_fits_function asked with ⟨function, isObject⟩
            rw [held, Option.map_some, isObject] at advances
            rw [advances.eq_of_object, Option.map_some, isObject]
      have same : others = functions :=
        (List.zip_of_prod names values).trans (List.zip_of_prod rfl rfl).symm
      exact ⟨otherParent, by rw [found, same]⟩
  | _ => simp [Spec.shape, Spec.mapSlots] at shape

theorem keeps (later : Later before after) (typed : before.WellTyped) : before.Keeps after := by
  intro id spec object
  rcases later.objects id spec object with ⟨changed, found, shape, slots⟩
  refine ⟨changed, found, shape, slots, ?_⟩
  rintro name parent functions rfl
  rcases later.functions_eq typed object with ⟨others, same⟩
  exact ⟨others, Option.some.inj (found.symm.trans same)⟩

/-- What a marked object leads to does not change either. -/
theorem object?_eq_of_reaches (later : Later before after) (closed : before.Closed)
    (present : ∀ id ∈ before.linked, (before.object? id).isSome) (marked : id ∈ before.linked)
    {other : ObjectId} (reaches : before.Reaches id other) :
    after.object? other = before.object? other := by
  have reached := closed.mem_linked_of_reaches marked reaches
  rcases Option.isSome_iff_exists.mp (present other reached) with ⟨spec, object⟩
  rw [object, later.object?_eq closed reached object]

end Later

variable {base : Nat} {named : Reference → Prop} {family : Scope → Prop}
  {graph before after : Graph}

theorem Relinked.later (relinked : Relinked before after) : Later before after where
  linked := relinked.linked
  objects id spec object := by
    rcases relinked.shapes.exists_object object with ⟨changed, found, shape⟩
    refine ⟨changed, found, shape, ?_⟩
    intro position
    have advances := relinked.advances id position
    rwa [slot?, slot?, object, found, Option.bind_some, Option.bind_some] at advances

/-- Adding objects makes a later graph. -/
theorem Grows.later (grows : Grows base named before after) : Later before after where
  linked := grows.linked ▸ List.Subset.refl _
  objects id spec object := by
    refine ⟨spec, ?_, rfl, fun _ => Advances.refl _⟩
    rw [grows.kept id (Array.getElem?_eq_some_iff.mp object).1, object]

theorem relinked_linkAll (idle : graph.pending = none) (scope : Scope)
    (order : List (String × EntityKind × ObjectId)) :
    Relinked graph (Module.linkAll scope order graph).2.graph := by
  induction order generalizing graph with
  | nil => exact Relinked.refl graph
  | cons entry rest hypothesis =>
      rcases entry with ⟨name, kind, id⟩
      have first := relinked_linkObject idle scope id
      simp only [Module.linkAll]
      split
      · exact first.trans (hypothesis (idle_linkObject idle scope id))
      · exact first

/-- A linked slot of a sound graph is inert. -/
theorem Sound.inert (sound : graph.Sound family) {slot : Slot}
    (linked : graph.isLinked slot = true) : graph.Inert slot := by
  have asSlot (scope : Scope) : graph.linkSlot scope slot = ⟨graph, .ok slot, []⟩ := by
    rw [linkSlot_eq]
    cases slot with
    | primitive type => rfl
    | unresolved reference => cases linked
    | object id =>
        have marked : id ∈ graph.linked := by simpa using linked
        simp only [target, linkObject_of_mem_linked scope marked]
        rfl
  have asSpec (scope : Scope) : graph.linkSpec scope slot = ⟨graph, .ok slot, []⟩ := by
    rcases graph.linkSpec_cases scope slot with nothing | same
    · exact nothing
    · rw [same graph fun _ => rfl, asSlot scope]
  refine ⟨asSlot, asSpec, ?_⟩
  intro scope call about
  cases call with
  | spec other =>
      obtain rfl : slot = other := about.symm
      rw [LinkCall.perform, asSpec]
      rfl
  | type other =>
      obtain rfl : slot = other := about.symm
      rw [LinkCall.perform, asSlot]
      rfl
  | service id =>
      obtain rfl : slot = .object id := about.symm
      exact linkObject_of_mem_linked scope (by simpa using linked)
  | function id =>
      obtain rfl : slot = .object id := about.symm
      exact linkObject_of_mem_linked scope (by simpa using linked)
  | fields id part =>
      obtain rfl : slot = .object id := about.symm
      have marked : id ∈ graph.linked := by simpa using linked
      rw [LinkCall.perform, Graph.linkFieldGroup]
      split
      · rfl
      · apply linkPositions_of_settledAt
        intro position _ slot held
        exact sound.closed.isLinked_of_slot? marked held

end Graph

namespace Session

open IdlLinker.Graph

variable {session : Session}

theorem relinked_assemble (workspace : Workspace) (idle : workspace.graph.pending = none)
    (units : List (String × CompiledDefinition)) (includes : Includes) :
    Relinked (Module.install workspace.graph units).2
      (Module.assemble workspace units includes).workspace.graph := by
  have grows := Module.installAll_grows (fun _ => True) units workspace.graph 0 (Nat.zero_le _)
    (by simp)
  exact relinked_linkAll (grows.pending.trans idle) _ _

theorem later_compileModule (idle : session.graph.pending = none) (definitions : List Definition)
    (includes : Includes) :
    Later session.graph (session.compileModule definitions includes).graph := by
  unfold Session.compileModule
  rcases Module.compile_cases session.workspace definitions includes with
    ⟨journal, error, refused⟩ | ⟨units, journal, _, _, assembled⟩
  · rw [refused]
    exact Later.refl _
  · rw [assembled]
    have grows := Module.installAll_grows (fun _ => True) units session.graph 0 (Nat.zero_le _)
      (by simp)
    have later := grows.later.trans (relinked_assemble session.workspace idle units includes).later
    cases ended : (Module.assemble session.workspace units includes).outcome with
    | ok module =>
        simp only [ended]
        exact later
    | error error =>
        simp only [ended]
        exact later

/-- Every call makes a later graph. -/
theorem later_perform (sound : session.Sound) (call : Call) :
    Later session.graph (session.perform call).graph := by
  have step := step_perform session call
  generalize session.perform call = after at step ⊢
  cases step with
  | idle => exact Later.refl _
  | grow grows => exact grows.later
  | scope known =>
      unfold Session.createScope
      split
      · exact Later.refl _
      · exact Later.refl _
  | unit known => exact later_compileModule sound.idle _ _
  | link member => exact (relinked_perform sound.idle _ _).later

theorem later_run (calls later : List Call) :
    Later (run calls).graph (run (calls ++ later)).graph := by
  have onward (session : Session) (sound : session.Sound) :
      Later session.graph (later.foldl perform session).graph := by
    induction later generalizing session with
    | nil => exact Later.refl _
    | cons call rest hypothesis =>
        exact (later_perform sound call).trans (hypothesis _ (sound.perform call))
  have split : run (calls ++ later) = later.foldl perform (run calls) := List.foldl_append
  rw [split]
  exact onward _ (sound_run calls)

/-- After any sequence of calls, what is linked stays linked whatever is called
later, it and all it leads to stay as they are, and linking it again in any
scope does nothing.  What is not linked yet changes only where references
become objects, and no linking adds or removes an object. -/
theorem linked_frozen (calls : List Call) :
    (∀ slot, (run calls).graph.isLinked slot = true →
      (run calls).graph.Inert slot ∧
      ∀ later, (run (calls ++ later)).graph.isLinked slot = true ∧
        (run (calls ++ later)).graph.Inert slot ∧
        ∀ id other, slot = .object id → (run calls).graph.Reaches id other →
          (run (calls ++ later)).graph.isLinked (.object other) = true ∧
            (run (calls ++ later)).graph.object? other = (run calls).graph.object? other) ∧
    (∀ later, (run calls).graph.Keeps (run (calls ++ later)).graph) ∧
    (∀ scope (call : LinkCall),
      (run calls).graph.SameShapes (call.perform (run calls).graph scope).graph ∧
        (run calls).graph.Keeps (call.perform (run calls).graph scope).graph) ∧
    ∀ units includes,
      (Module.install (run calls).graph units).2.SameShapes
          (Module.assemble (run calls).workspace units includes).workspace.graph ∧
        (Module.install (run calls).graph units).2.Keeps
          (Module.assemble (run calls).workspace units includes).workspace.graph := by
  have sound := sound_run calls
  refine ⟨?_, ?_, ?_, ?_⟩
  · intro slot linked
    refine ⟨Graph.Sound.inert sound linked, ?_⟩
    intro later
    have onward := later_run calls later
    have still : (run (calls ++ later)).graph.isLinked slot = true :=
      isLinked_mono onward.linked linked
    refine ⟨still, Graph.Sound.inert (sound_run (calls ++ later)) still, ?_⟩
    rintro id other rfl reaches
    have marked : id ∈ (run calls).graph.linked := by simpa using linked
    have reached := sound.closed.mem_linked_of_reaches marked reaches
    exact ⟨decide_eq_true (onward.linked reached),
      onward.object?_eq_of_reaches sound.closed sound.present marked reaches⟩
  · intro later
    exact (later_run calls later).keeps sound.typed
  · intro scope call
    have relinked := relinked_perform sound.idle scope call
    exact ⟨relinked.shapes, relinked.later.keeps sound.typed⟩
  · intro units includes
    have grown : (Module.install (run calls).graph units).2.Sound (· ∈ (run calls).scopes) :=
      Graph.Sound.grow sound
        (Module.installAll_grows (fun _ => True) units _ 0 (Nat.zero_le _) (by simp))
    have relinked := relinked_assemble (run calls).workspace sound.idle units includes
    exact ⟨relinked.shapes, relinked.later.keeps grown.typed⟩

/-- Another struct of the same name is compiled and registered, and the linked
one is linked again there and in the empty scope. -/
def relinkedElsewhere : List Call :=
  [.compile (.struct ⟨.struct, "Node", [], .ofInt 3⟩), .createScope [1] [] [],
    .link (.type (.object 0)) 2, .link (.spec (.object 0)) 0, .link (.fields 0 .fields) 2]

theorem linked_frozen_relinkedElsewhere :
    (run selfReference).graph.isLinked (.object 0) = true ∧
      (run selfReference).graph.Reaches 0 0 ∧
      (run (selfReference ++ relinkedElsewhere)).graph.isLinked (.object 0) = true ∧
      (run (selfReference ++ relinkedElsewhere)).graph.object? 0 =
        (run selfReference).graph.object? 0 :=
  have linked : (run selfReference).graph.isLinked (.object 0) = true := by decide
  have stays := ((linked_frozen selfReference).1 (.object 0) linked).2 relinkedElsewhere
  ⟨linked, .refl, stays.1, (stays.2.2 0 0 rfl .refl).2⟩

end Session

end IdlLinker
