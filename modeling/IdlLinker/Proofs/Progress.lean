import IdlLinker.Proofs.Sound

/-!
# Progress of linking

Whether it succeeds or fails, a linking takes back no mark made before it,
keeps what objects are apart from their positions, and changes positions only
from references to objects.
-/

namespace IdlLinker

namespace Graph

/-- A graph and one that linking has made of it. -/
structure Progress (before after : Graph) : Prop where
  linked : before.linked ⊆ after.linked
  advances : ∀ id position, Advances (before.slot? id position) (after.slot? id position)

/-- A graph and one that linking alone has made of it. -/
structure Relinked (before after : Graph) : Prop extends Progress before after where
  shapes : before.SameShapes after

/-- A position has nothing left to link. -/
def SettledAt (graph : Graph) (id : ObjectId) (position : Nat) : Prop :=
  ∀ slot, graph.slot? id position = some slot → graph.isLinked slot = true

namespace Progress

variable {before between after : Graph} {scope : Scope} {id : ObjectId} {position : Nat}

theorem refl (graph : Graph) : Progress graph graph :=
  ⟨List.Subset.refl _, fun _ _ => Advances.refl _⟩

theorem trans (first : Progress before between) (second : Progress between after) :
    Progress before after :=
  ⟨List.Subset.trans first.linked second.linked,
    fun id position => (first.advances id position).trans (second.advances id position)⟩

theorem settledAt (progress : Progress before after) (settled : before.SettledAt id position) :
    after.SettledAt id position := by
  intro slot held
  rcases progress.advances id position with same | ⟨reference, next, found, _⟩
  · exact isLinked_mono progress.linked (settled slot (same ▸ held))
  · cases settled _ found

/-- Where a position led before and leads afterwards, it led in between. -/
theorem leadsTo_eq (first : Progress before between) (second : Progress between after)
    (same : after.leadsTo scope id position = before.leadsTo scope id position) :
    after.leadsTo scope id position = between.leadsTo scope id position := by
  rcases first.advances id position with kept | ⟨reference, next, _, replaced⟩
  · rw [same, leadsTo, leadsTo, kept]
  · have stays := second.advances id position
    rw [replaced] at stays
    rw [leadsTo, leadsTo, stays.eq_of_object, replaced]

end Progress

namespace Relinked

variable {before between after : Graph}

theorem refl (graph : Graph) : Relinked graph graph := ⟨Progress.refl graph, fun _ => rfl⟩

theorem trans (first : Relinked before between)
    (second : Relinked between after) : Relinked before after :=
  ⟨first.toProgress.trans second.toProgress,
    fun id => (second.shapes id).trans (first.shapes id)⟩

end Relinked

variable {family : Scope → Prop} {scope : Scope} {graph : Graph}

/-! ## Objects and positions -/

/-- Linking an object is progress. -/
theorem progress_linkObject (idle : graph.pending = none) (scope : Scope) (id : ObjectId) :
    Progress graph (graph.linkObject scope id).graph := by
  rcases exists_visit_linkObject idle scope id with ⟨visited, outcome, visit, equation⟩
  rw [equation]
  cases outcome with
  | ok done => exact ⟨visit.linked_subset, visit.advances⟩
  | error error => exact ⟨List.Subset.refl _, visit.advances⟩

theorem linkObject_of_mem_linked (scope : Scope) {id : ObjectId} (marked : id ∈ graph.linked) :
    graph.linkObject scope id = ⟨graph, .ok (), []⟩ := by
  rw [linkObject, linkDepth, enter]
  cases graph.object? id with
  | none => rfl
  | some spec => exact if_pos marked

/-- Linking one position is progress. -/
theorem progress_linkPosition (idle : graph.pending = none) (scope : Scope) (id : ObjectId)
    (position : Nat) : Progress graph (graph.linkPosition scope id position).graph := by
  rw [linkPosition_eq]
  cases leads : graph.leadsTo scope id position with
  | error error => exact Progress.refl graph
  | ok found =>
      cases found with
      | none => exact Progress.refl graph
      | some found =>
          obtain ⟨next, home⟩ := found
          have entered := progress_linkObject idle home next
          dsimp only
          split
          · exact ⟨entered.linked, advances_setSlot leads entered.advances⟩
          · exact entered

theorem idle_linkObject (idle : graph.pending = none) (scope : Scope) (id : ObjectId) :
    (graph.linkObject scope id).graph.pending = none := by
  rcases exists_visit_linkObject idle scope id with ⟨visited, outcome, visit, equation⟩
  rw [equation, pending_rollback, visit.pending_eq, idle]

theorem idle_linkPosition (idle : graph.pending = none) (scope : Scope) (id : ObjectId)
    (position : Nat) : (graph.linkPosition scope id position).graph.pending = none := by
  rw [linkPosition_eq]
  cases graph.leadsTo scope id position with
  | error error => exact idle
  | ok found =>
      cases found with
      | none => exact idle
      | some found =>
          dsimp only
          split
          · exact idle_linkObject idle found.2 found.1
          · exact idle_linkObject idle found.2 found.1

/-! ## Link calls -/

theorem relinked_linkObject (idle : graph.pending = none) (scope : Scope) (id : ObjectId) :
    Relinked graph (graph.linkObject scope id).graph :=
  ⟨progress_linkObject idle scope id, sameShapes_linkObject idle scope id⟩

theorem relinked_linkPositions (idle : graph.pending = none) (scope : Scope) (id : ObjectId)
    (positions : List Nat) : Relinked graph (graph.linkPositions scope id positions).graph := by
  induction positions generalizing graph with
  | nil => exact Relinked.refl graph
  | cons position rest hypothesis =>
      have first : Relinked graph (graph.linkPosition scope id position).graph :=
        ⟨progress_linkPosition idle scope id position,
          sameShapes_linkPosition idle scope id position⟩
      simp only [linkPositions]
      split
      · exact first.trans (hypothesis (idle_linkPosition idle scope id position))
      · exact first

theorem relinked_linkSlot (idle : graph.pending = none) (scope : Scope) (slot : Slot) :
    Relinked graph (graph.linkSlot scope slot).graph := by
  rw [linkSlot_eq]
  split
  · exact Relinked.refl graph
  · exact Relinked.refl graph
  · next next home leads => exact relinked_linkObject idle home next

/-- No link call does more than linking, whichever scope it is given. -/
theorem relinked_perform (idle : graph.pending = none) (scope : Scope) (call : LinkCall) :
    Relinked graph (call.perform graph scope).graph := by
  cases call with
  | spec slot =>
      rcases graph.linkSpec_cases scope slot with nothing | same
      · simp only [LinkCall.perform, nothing]
        exact Relinked.refl graph
      · simp only [LinkCall.perform, same graph fun _ => rfl]
        exact relinked_linkSlot idle scope slot
  | type slot => exact relinked_linkSlot idle scope slot
  | service id => exact relinked_linkObject idle scope id
  | function id => exact relinked_linkObject idle scope id
  | fields id part =>
      simp only [LinkCall.perform, linkFieldGroup]
      split
      · exact Relinked.refl graph
      · exact relinked_linkPositions idle scope id _

/-! ## Settled positions -/

/-- A position linked without an error is settled. -/
theorem Sound.settledAt_linkPosition (sound : graph.Sound family) (member : family scope)
    {id : ObjectId} {position : Nat}
    (ended : (graph.linkPosition scope id position).outcome = .ok ()) :
    (graph.linkPosition scope id position).graph.SettledAt id position := by
  rw [linkPosition_eq] at ended ⊢
  cases leads : graph.leadsTo scope id position with
  | error error =>
      rw [leads] at ended
      cases ended
  | ok found =>
      cases found with
      | none =>
          intro slot held
          change graph.slot? id position = some slot at held
          rcases slot?_of_leadsTo_none leads with empty | ⟨type, found⟩
          · rw [empty] at held
            cases held
          · rw [found] at held
            cases held
            rfl
      | some found =>
          obtain ⟨next, home⟩ := found
          have ready := sound.ready member
          have marked := sound.mem_linked (ready.onward leads).member (ready.present leads)
          have entered := progress_linkObject sound.idle home next
          rw [leads] at ended
          dsimp only at ended ⊢
          cases linked : (graph.linkObject home next).outcome with
          | error error =>
              rw [linked] at ended
              cases ended
          | ok done =>
              intro slot held
              dsimp only at held ⊢
              rw [slot?_setSlot_of_leadsTo leads (entered.advances id position)] at held
              cases held
              exact decide_eq_true (marked linked)

/-- Linking a settled position changes nothing. -/
theorem linkPosition_of_settledAt {id : ObjectId} {position : Nat}
    (settled : graph.SettledAt id position) (scope : Scope) :
    graph.linkPosition scope id position = ⟨graph, .ok (), []⟩ := by
  rw [linkPosition_eq]
  cases held : graph.slot? id position with
  | none => simp [leadsTo, held]
  | some slot =>
      have linked := settled slot held
      cases slot with
      | primitive type => simp [leadsTo, held, target]
      | unresolved reference => cases linked
      | object next =>
          have marked : next ∈ graph.linked := by simpa using linked
          simp [leadsTo, held, target, linkObject_of_mem_linked scope marked,
            graph.setSlot_eq_self held]

theorem linkPositions_of_settledAt {id : ObjectId} {positions : List Nat}
    (settled : ∀ position ∈ positions, graph.SettledAt id position) (scope : Scope) :
    graph.linkPositions scope id positions = ⟨graph, .ok (), []⟩ := by
  induction positions with
  | nil => rfl
  | cons position rest hypothesis =>
      rw [linkPositions, linkPosition_of_settledAt (settled position List.mem_cons_self)]
      exact hypothesis fun other member => settled other (List.mem_cons_of_mem _ member)

/-- Positions linked without an error are settled. -/
theorem Sound.settledAt_linkPositions (sound : graph.Sound family) (member : family scope)
    {id : ObjectId} {positions : List Nat}
    (ended : (graph.linkPositions scope id positions).outcome = .ok ()) :
    ∀ position ∈ positions,
      (graph.linkPositions scope id positions).graph.SettledAt id position := by
  induction positions generalizing graph with
  | nil => simp
  | cons position rest hypothesis =>
      simp only [Graph.linkPositions] at ended ⊢
      cases first : (graph.linkPosition scope id position).outcome with
      | error error => simp [first] at ended
      | ok done =>
          simp only [first] at ended ⊢
          have linked := sound.linkPosition member id position
          intro other otherMember
          rcases List.mem_cons.mp otherMember with rfl | inRest
          · have later := relinked_linkPositions linked.idle scope id rest
            exact later.settledAt (sound.settledAt_linkPosition member first)
          · exact hypothesis linked ended other inRest

end Graph

end IdlLinker
