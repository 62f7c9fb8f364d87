import IdlLinker.Graph.Role
import IdlLinker.Scope
import IdlLinker.Proofs.Visit

/-!
# Well-typed graphs

Scopes register types as types and services as services, and include only
scopes that do so too.  Over such scopes a visit puts a type where a type is
asked for and a service where a service is, so a well-typed graph stays well
typed.
-/

namespace IdlLinker

variable {ρ σ : Type}

namespace Spec

@[simp]
theorem role?_shape (spec : Spec ρ) : spec.shape.role? = spec.role? := by
  cases spec <;> rfl

@[simp]
theorem roleAt_shape (spec : Spec ρ) : spec.shape.roleAt = spec.roleAt := by
  funext position
  cases spec with
  | service name parent functions => cases parent <;> rfl
  | _ => rfl

theorem role?_eq_of_shape {left : Spec ρ} {right : Spec σ} (same : left.shape = right.shape) :
    left.role? = right.role? := by
  rw [← role?_shape left, same, role?_shape]

theorem roleAt_eq_of_shape {left : Spec ρ} {right : Spec σ} (same : left.shape = right.shape) :
    left.roleAt = right.roleAt := by
  rw [← roleAt_shape left, same, roleAt_shape]

end Spec

/-- A family of scopes whose entries are objects of the kind they are
registered as, and which is closed under inclusion. -/
structure SoundScopes (graph : Graph) (family : Scope → Prop) : Prop where
  registered : ∀ scope, family scope → ∀ kind name id,
    Record.get? (scope.table kind) name = some id →
      graph.fits kind.role (.object id) = true
  included : ∀ scope, family scope → ∀ name inner,
    Record.get? scope.includes name = some inner → family inner

/-- What a name resolves to fits its kind, and its scope is of the family. -/
theorem SoundScopes.resolve {graph : Graph} {family : Scope → Prop}
    (sound : SoundScopes graph family) {scope home : Scope} (member : family scope)
    {kind : EntityKind} {name : String} {id : ObjectId}
    (resolved : scope.resolve kind name = some (id, home)) :
    graph.fits kind.role (.object id) = true ∧ family home := by
  unfold Scope.resolve at resolved
  generalize Name.segments name.toList = segments at resolved
  induction segments generalizing scope with
  | nil => cases resolved
  | cons first rest hypothesis =>
      simp only [Scope.resolveSegments] at resolved
      split at resolved
      · next own found =>
          cases resolved
          exact ⟨sound.registered _ member kind _ _ found, member⟩
      · split at resolved
        · cases resolved
        · split at resolved
          · next inner found =>
              exact hypothesis (sound.included scope member _ inner found) resolved
          · cases resolved

namespace Graph

/-- Two graphs hold objects of the same shapes. -/
def SameShapes (before after : Graph) : Prop :=
  ∀ id, (after.object? id).map Spec.shape = (before.object? id).map Spec.shape

namespace SameShapes

variable {before after : Graph}

theorem exists_object (same : before.SameShapes after) {id : ObjectId} {spec : Spec Slot}
    (object : before.object? id = some spec) :
    ∃ changed, after.object? id = some changed ∧ changed.shape = spec.shape := by
  have shapes := same id
  rw [object] at shapes
  cases found : after.object? id with
  | none => simp [found] at shapes
  | some changed =>
      refine ⟨changed, rfl, ?_⟩
      simpa [found] using shapes

theorem symm (same : before.SameShapes after) : after.SameShapes before :=
  fun id => (same id).symm

theorem fits_eq (same : before.SameShapes after) (role : Role) (slot : Slot) :
    after.fits role slot = before.fits role slot := by
  cases slot with
  | primitive type => rfl
  | unresolved reference => rfl
  | object id =>
      have roles : (after.object? id).bind Spec.role? = (before.object? id).bind Spec.role? := by
        cases object : before.object? id with
        | none =>
            have shapes := same id
            rw [object] at shapes
            simp at shapes
            simp [shapes]
        | some spec =>
            rcases same.exists_object object with ⟨changed, found, shape⟩
            simp [found, Spec.role?_eq_of_shape shape]
      rw [fits, fits, roles]

theorem soundScopes (same : before.SameShapes after) {family : Scope → Prop}
    (sound : SoundScopes before family) : SoundScopes after family where
  registered scope member kind name id found := by
    rw [same.fits_eq]
    exact sound.registered scope member kind name id found
  included := sound.included

end SameShapes

theorem isSome_of_fits {graph : Graph} {role : Role} {id : ObjectId}
    (fits : graph.fits role (.object id) = true) : (graph.object? id).isSome := by
  cases object : graph.object? id with
  | none => simp [Graph.fits, object] at fits
  | some spec => rfl

/-- Storing what fits a position keeps a graph well typed. -/
theorem WellTyped.setSlot {graph : Graph} (typed : graph.WellTyped) {id : ObjectId}
    {position : Nat} {slot : Slot}
    (fits : ∀ spec, graph.object? id = some spec →
      graph.fits (spec.roleAt position) slot = true) :
    (graph.setSlot id position slot).WellTyped := by
  intro other spec index held object found
  have same : graph.SameShapes (graph.setSlot id position slot) :=
    fun target => graph.shape_setSlot id target position slot
  rcases same.symm.exists_object object with ⟨old, oldObject, shape⟩
  rw [same.fits_eq, ← Spec.roleAt_eq_of_shape shape]
  rw [object?_setSlot] at object
  split at object
  · next here =>
      subst here
      simp only [oldObject, Option.map_some, Option.some.injEq] at object
      subst object
      rw [Spec.slots_setSlot, List.getElem?_set] at found
      split at found
      · next equal =>
          subst equal
          split at found
          · cases found
            exact fits _ oldObject
          · cases found
      · exact typed other _ index held oldObject found
  · rw [oldObject] at object
    cases object
    exact typed other _ index held oldObject found

end Graph

/-- A well-typed graph, sound scopes for it, and one of these scopes. -/
structure Ready (family : Scope → Prop) (scope : Scope) (graph : Graph) : Prop where
  sound : SoundScopes graph family
  member : family scope
  typed : graph.WellTyped

namespace Ready

variable {family : Scope → Prop} {scope home : Scope} {graph between : Graph}
  {id next : ObjectId} {position : Nat}

theorem mark (ready : Ready family scope graph) (id : ObjectId) :
    Ready family scope (graph.mark id) where
  sound := ⟨ready.sound.registered, ready.sound.included⟩
  member := ready.member
  typed := ready.typed

/-- Where a position leads, linking goes on in a scope of the family. -/
theorem onward (ready : Ready family scope graph)
    (leads : graph.leadsTo scope id position = .ok (some (next, home))) :
    Ready family home graph where
  sound := ready.sound
  member := by
    rcases Graph.slot?_of_leadsTo_some leads with ⟨_, rfl⟩ | ⟨reference, _, resolved⟩
    · exact ready.member
    · exact (ready.sound.resolve ready.member resolved).2
  typed := ready.typed

/-- What a position leads to is what it asks for. -/
theorem fits (ready : Ready family scope graph) {spec : Spec Slot}
    (object : graph.object? id = some spec)
    (leads : graph.leadsTo scope id position = .ok (some (next, home))) :
    graph.fits (spec.roleAt position) (.object next) = true := by
  rcases Graph.slot?_of_leadsTo_some leads with ⟨held, _⟩ | ⟨reference, held, resolved⟩
  · apply ready.typed id spec position _ object
    simpa [Graph.slot?, object] using held
  · have asked := ready.typed id spec position (.unresolved reference) object
      (by simpa [Graph.slot?, object] using held)
    have role : spec.roleAt position = reference.kind.role := by
      simpa [Graph.fits] using asked
    rw [role]
    exact (ready.sound.resolve ready.member resolved).1

theorem present (ready : Ready family scope graph)
    (leads : graph.leadsTo scope id position = .ok (some (next, home))) :
    (graph.object? next).isSome := by
  cases object : graph.object? id with
  | none =>
      simp [Graph.leadsTo, Graph.slot?, object] at leads
  | some spec => exact Graph.isSome_of_fits (ready.fits object leads)

/-- Once what a position leads to is linked and stored there, linking can go
on. -/
theorem resume (ready : Ready family scope graph)
    (leads : graph.leadsTo scope id position = .ok (some (next, home)))
    (same : graph.SameShapes between) (typed : between.WellTyped) :
    Ready family scope (between.setSlot id position (.object next)) where
  sound := by
    apply Graph.SameShapes.soundScopes (fun other => between.shape_setSlot id other position _)
    exact same.soundScopes ready.sound
  member := ready.member
  typed := by
    apply typed.setSlot
    intro spec object
    rcases same.symm.exists_object object with ⟨old, oldObject, shape⟩
    rw [same.fits_eq, ← Spec.roleAt_eq_of_shape shape]
    exact ready.fits oldObject leads

end Ready

namespace Visit

variable {scope : Scope} {task : Task} {before after : Graph}
  {outcome : Except CompileError Unit}

theorem sameShapes (visit : Visit scope task before after outcome) : before.SameShapes after :=
  fun id => visit.shape_eq id

theorem isSome_object? (visit : Visit scope task before after outcome) {id : ObjectId}
    (present : (before.object? id).isSome) : (after.object? id).isSome := by
  rcases Option.isSome_iff_exists.mp present with ⟨spec, object⟩
  rcases visit.sameShapes.exists_object object with ⟨changed, found, _⟩
  rw [found]
  rfl

/-- A visit over sound scopes keeps a graph well typed. -/
theorem wellTyped (visit : Visit scope task before after outcome) {family : Scope → Prop}
    (ready : Ready family scope before) : after.WellTyped := by
  induction visit with
  | rest marked => exact ready.typed
  | body unmarked object _ settled => exact settled (ready.mark _)
  | done => exact ready.typed
  | skip nowhere _ settled => exact settled ready
  | follow leads entry _ entered settled =>
      exact settled (ready.resume leads entry.sameShapes (entered (ready.onward leads)))
  | stuck unresolved => exact ready.typed
  | fail leads _ entered => exact entered (ready.onward leads)

theorem ready (visit : Visit scope task before after outcome) {family : Scope → Prop}
    (ready : Ready family scope before) : Ready family scope after where
  sound := visit.sameShapes.soundScopes ready.sound
  member := ready.member
  typed := visit.wellTyped ready

end Visit

end IdlLinker
