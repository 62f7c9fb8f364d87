import IdlLinker.Proofs.Closed
import IdlLinker.Session

/-!
# Sound graphs

Between two linkings nothing is pending, objects and scopes are well typed, and
marks are closed.  Every linking preserves this, whether it succeeds or fails
and whichever objects and scopes it is given.
-/

namespace IdlLinker

namespace Graph

/-- What holds between two linkings in scopes of a family. -/
structure Sound (family : Scope → Prop) (graph : Graph) : Prop where
  idle : graph.pending = none
  present : ∀ id ∈ graph.linked, (graph.object? id).isSome
  typed : graph.WellTyped
  scopes : SoundScopes graph family
  closed : graph.Closed

theorem isSome_object?_setSlot {graph : Graph} {id : ObjectId} (other : ObjectId) (position : Nat)
    (slot : Slot) (present : (graph.object? id).isSome) :
    ((graph.setSlot other position slot).object? id).isSome := by
  have same := graph.shape_setSlot other id position slot
  rw [← Option.isSome_map, same, Option.isSome_map]
  exact present

/-- Storing a linked slot keeps marks closed. -/
theorem Closed.setSlot {graph : Graph} (closed : graph.Closed) (id : ObjectId) (position : Nat)
    {slot : Slot} (linked : graph.isLinked slot = true) :
    (graph.setSlot id position slot).Closed := by
  intro other member finished index held found
  rcases graph.slot?_setSlot_cases found with ⟨_, rfl⟩ | ⟨_, old⟩
  · exact linked
  · exact closed other member finished index held old

end Graph

namespace Visit

variable {scope : Scope} {task : Task} {before after : Graph}
  {outcome : Except CompileError Unit}

/-- A visit marks objects of the graph only. -/
theorem present (visit : Visit scope task before after outcome)
    (present : ∀ id ∈ before.linked, (before.object? id).isSome) :
    ∀ id ∈ after.linked, (after.object? id).isSome := by
  induction visit with
  | rest marked => exact present
  | @body scope id graph after outcome spec unmarked object _ settled =>
      apply settled
      intro other member
      rcases List.mem_cons.mp member with rfl | old
      · exact Option.isSome_iff_exists.mpr ⟨spec, object⟩
      · exact present other old
  | done => exact present
  | skip nowhere _ settled => exact settled present
  | follow leads _ _ entered settled =>
      apply settled
      intro other member
      exact Graph.isSome_object?_setSlot _ _ _ (entered present other member)
  | stuck unresolved => exact present
  | fail leads _ entered => exact entered present

end Visit

namespace Graph

variable {family : Scope → Prop} {scope home : Scope} {graph : Graph}

theorem Sound.ready (sound : graph.Sound family) (member : family scope) :
    Ready family scope graph :=
  ⟨sound.scopes, member, sound.typed⟩

/-- Linking an object keeps a graph sound. -/
theorem Sound.linkObject (sound : graph.Sound family) (member : family scope) (id : ObjectId) :
    (graph.linkObject scope id).graph.Sound family := by
  rcases exists_visit_linkObject sound.idle scope id with ⟨visited, outcome, visit, equation⟩
  have ready := visit.ready (sound.ready member)
  rw [equation]
  cases outcome with
  | ok done =>
      refine ⟨visit.pending_eq.trans sound.idle, visit.present sound.present, ready.typed,
        ready.sound, ?_⟩
      cases object : graph.object? id with
      | none =>
          cases visit with
          | rest marked => exact sound.closed
          | body unmarked found _ =>
              rw [object] at found
              cases found
      | some spec =>
          have closes := visit.closes (sound.ready member) rfl
          exact (closes _ sound.closed (by rw [object]; rfl)).1
  | error error =>
      refine ⟨visit.pending_eq.trans sound.idle, ?_, ready.typed,
        ⟨ready.sound.registered, ready.sound.included⟩, ?_⟩
      · intro other marked
        exact visit.isSome_object? (sound.present other marked)
      · intro other marked finished position slot held
        have same : visited.object? other = graph.object? other :=
          visit.object?_eq marked (by simp [Task.holder?])
        apply sound.closed other marked finished position slot
        rwa [slot?, ← same]

/-- An object linked without an error is marked. -/
theorem Sound.mem_linked (sound : graph.Sound family) (member : family scope) {id : ObjectId}
    (present : (graph.object? id).isSome) (ended : (graph.linkObject scope id).outcome = .ok ()) :
    id ∈ (graph.linkObject scope id).graph.linked := by
  rcases exists_visit_linkObject sound.idle scope id with ⟨visited, outcome, visit, equation⟩
  rw [equation] at ended ⊢
  cases ended
  exact (visit.closes (sound.ready member) rfl _ sound.closed present).2

theorem Sound.setSlot (sound : graph.Sound family) {id next : ObjectId} {position : Nat}
    (linked : next ∈ graph.linked)
    (fits : ∀ spec, graph.object? id = some spec →
      graph.fits (spec.roleAt position) (.object next) = true) :
    (graph.setSlot id position (.object next)).Sound family where
  idle := sound.idle
  present other marked := isSome_object?_setSlot _ _ _ (sound.present other marked)
  typed := sound.typed.setSlot fits
  scopes :=
    SameShapes.soundScopes (fun other => graph.shape_setSlot id other position _) sound.scopes
  closed := sound.closed.setSlot id position (decide_eq_true linked)

theorem sameShapes_linkObject (idle : graph.pending = none) (scope : Scope) (id : ObjectId) :
    graph.SameShapes (graph.linkObject scope id).graph := by
  rcases exists_visit_linkObject idle scope id with ⟨visited, outcome, visit, equation⟩
  intro other
  rw [equation, object?, objects_rollback]
  exact visit.shape_eq other

/-- Linking one position keeps a graph sound. -/
theorem Sound.linkPosition (sound : graph.Sound family) (member : family scope) (id : ObjectId)
    (position : Nat) : (graph.linkPosition scope id position).graph.Sound family := by
  rw [linkPosition_eq]
  cases leads : graph.leadsTo scope id position with
  | error error => exact sound
  | ok found =>
      cases found with
      | none => exact sound
      | some found =>
          rcases found with ⟨next, home⟩
          have ready := sound.ready member
          have onward := (ready.onward leads).member
          have kept := sound.linkObject onward next
          have marked := sound.mem_linked onward (ready.present leads)
          have shapes := sameShapes_linkObject sound.idle home next
          dsimp only
          cases ended : (graph.linkObject home next).outcome with
          | error error => exact kept
          | ok done =>
              apply kept.setSlot (marked ended)
              intro spec object
              rcases shapes.symm.exists_object object with ⟨old, oldObject, shape⟩
              rw [shapes.fits_eq, ← Spec.roleAt_eq_of_shape shape]
              exact ready.fits oldObject leads

theorem Sound.linkPositions (sound : graph.Sound family) (member : family scope) (id : ObjectId)
    (positions : List Nat) :
    (graph.linkPositions scope id positions).graph.Sound family := by
  induction positions generalizing graph with
  | nil => exact sound
  | cons position rest hypothesis =>
      have settled := sound.linkPosition member id position
      simp only [Graph.linkPositions]
      split
      · exact hypothesis settled
      · exact settled

theorem Sound.linkFieldGroup (sound : graph.Sound family) (member : family scope) (id : ObjectId)
    (part : GroupPart) : (graph.linkFieldGroup scope id part).graph.Sound family := by
  unfold Graph.linkFieldGroup
  split
  · exact sound
  · exact sound.linkPositions member id _

theorem Sound.linkSlot (sound : graph.Sound family) (member : family scope) (slot : Slot) :
    (graph.linkSlot scope slot).graph.Sound family := by
  unfold Graph.linkSlot settleSlot
  split
  · exact sound
  · exact sound
  · next next home leads =>
      refine sound.linkObject ?_ next
      cases slot with
      | primitive type => cases leads
      | object id =>
          cases leads
          exact member
      | unresolved reference =>
          simp only [target] at leads
          split at leads
          · next found resolved =>
              cases leads
              exact (sound.scopes.resolve member resolved).2
          · cases leads

theorem sameShapes_linkPosition (idle : graph.pending = none) (scope : Scope) (id : ObjectId)
    (position : Nat) : graph.SameShapes (graph.linkPosition scope id position).graph := by
  intro other
  rw [linkPosition_eq]
  cases graph.leadsTo scope id position with
  | error error => rfl
  | ok found =>
      cases found with
      | none => rfl
      | some found =>
          dsimp only
          split
          · rw [shape_setSlot]
            exact sameShapes_linkObject idle found.2 found.1 other
          · exact sameShapes_linkObject idle found.2 found.1 other

theorem linkSpec_object (graph : Graph) (scope : Scope) (id : ObjectId) :
    graph.linkSpec scope (.object id) =
      if graph.fits .function (.object id) then ⟨graph, .ok (.object id), []⟩
      else graph.linkSlot scope (.object id) := by
  cases object : graph.object? id with
  | none => simp [linkSpec, object, fits]
  | some spec => cases spec <;> simp [linkSpec, object, fits, Spec.role?]

/-- What is linked as a spec is linked as a slot, or needs no linking at all. -/
theorem linkSpec_cases (graph : Graph) (scope : Scope) (slot : Slot) :
    graph.linkSpec scope slot = ⟨graph, .ok slot, []⟩ ∨
      ∀ other, graph.SameShapes other → other.linkSpec scope slot = other.linkSlot scope slot := by
  cases slot with
  | primitive type => exact Or.inr fun _ _ => rfl
  | unresolved reference =>
      obtain ⟨kind, name, line⟩ := reference
      cases kind with
      | type => exact Or.inr fun _ _ => rfl
      | service => exact Or.inl rfl
  | object id =>
      by_cases function : graph.fits .function (.object id) = true
      · exact Or.inl (by rw [linkSpec_object, if_pos function])
      · right
        intro other same
        rw [linkSpec_object, same.fits_eq, if_neg function]

theorem Sound.linkSpec (sound : graph.Sound family) (member : family scope) (slot : Slot) :
    (graph.linkSpec scope slot).graph.Sound family := by
  rcases graph.linkSpec_cases scope slot with nothing | same
  · rw [nothing]
    exact sound
  · rw [same graph fun _ => rfl]
    exact sound.linkSlot member slot

/-- Every link call keeps a graph sound. -/
theorem Sound.perform (sound : graph.Sound family) (member : family scope) (call : LinkCall) :
    (call.perform graph scope).graph.Sound family := by
  cases call with
  | spec slot => exact sound.linkSpec member slot
  | type slot => exact sound.linkSlot member slot
  | service id => exact sound.linkObject member id
  | function id => exact sound.linkObject member id
  | fields id part => exact sound.linkFieldGroup member id part

end Graph

end IdlLinker
