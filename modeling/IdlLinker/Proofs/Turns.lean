import IdlLinker.Proofs.FirstFailure
import IdlLinker.Proofs.Modules

/-!
# Objects linked in turn

What is linked leads only to what is linked, and all of it resolves.  So an
exploration of a graph as it was compiled that skips what was linked since finds
the same loose ends in the same order.  Hence the objects of a unit, linked one
after another, end each in the way they would end alone.
-/

namespace IdlLinker

namespace Graph

/-- Objects that lead, in a scope, only to one another. -/
def ClosedIn (graph : Graph) (scope : Scope) (ids : List ObjectId) : Prop :=
  ∀ id ∈ ids, ∀ position slot, graph.slot? id position = some slot →
    ∃ found, target scope slot = .ok found ∧
      ∀ next home, found = some (next, home) → next ∈ ids

variable {graph fresh : Graph} {scope home : Scope} {stretch : Stretch} {id : ObjectId}
  {entered after ids more : List ObjectId} {found : List LooseEnd}

namespace Explores

/-- An object that was entered before is not entered again. -/
theorem of_entered (explores : graph.Explores scope (.slot (.object id)) entered found after)
    (old : id ∈ entered) : found = [] ∧ after = entered := by
  cases explores with
  | known _ => exact ⟨rfl, rfl⟩
  | object new _ _ => exact absurd old new

/-- Among objects that were all entered before, and lead only to one another,
nothing is found. -/
theorem of_closedIn (closed : graph.ClosedIn scope ids) (member : id ∈ ids) (subset : ids ⊆ entered)
    {positions : List Nat}
    (explores : graph.Explores scope (.positions id positions) entered found after) :
    found = [] ∧ after = entered := by
  induction positions generalizing found after with
  | nil =>
      cases explores
      exact ⟨rfl, rfl⟩
  | cons position others hypothesis =>
      cases explores with
      | @next _ _ _ _ slot _ between _ here later held first rest =>
          have nothing : here = [] ∧ between = entered := by
            rcases closed id member position slot held with ⟨reached, leads, inside⟩
            cases reached with
            | none => exact first.of_target_none leads
            | some reached =>
                obtain ⟨next, inner⟩ := reached
                exact (first.of_target_some leads).of_entered (subset (inside next inner rfl))
          rcases nothing with ⟨rfl, rfl⟩
          exact hypothesis rest

/-- An exploration that skips objects which lead only to one another finds the
same. -/
theorem skip (explores : graph.Explores home stretch entered found after)
    (founded : graph.Founded scope) (closed : graph.ClosedIn scope ids)
    (marks : graph.linked ⊆ entered)
    (start : home = scope ∨ ∃ id ∈ graph.linked, stretch = .slot (.object id))
    (joined : ∀ id, id ∈ more ↔ id ∈ entered ∨ id ∈ ids) :
    ∃ later, graph.Explores home stretch more found later ∧
      ∀ id, id ∈ later ↔ id ∈ after ∨ id ∈ ids := by
  -- beyond what was linked at first everything is met in the one scope, where
  -- the objects to skip are closed
  induction explores generalizing more with
  | primitive => exact ⟨more, .primitive, joined⟩
  | loose unresolved => exact ⟨more, .loose unresolved, joined⟩
  | reference resolves _ explored =>
      rcases start with rfl | ⟨_, _, impossible⟩
      · rcases explored marks ((founded _ _ _ _ resolves).symm.imp_right fun marked =>
          ⟨_, marked, rfl⟩) joined with ⟨later, again, same⟩
        exact ⟨later, .reference resolves again, same⟩
      · cases impossible
  | known known =>
      exact ⟨more, .known (known.imp_left fun old => (joined _).mpr (Or.inl old)), joined⟩
  | @object home id entered after found spec new object _ explored =>
      have within : home = scope := by
        rcases start with same | ⟨other, marked, same⟩
        · exact same
        · cases same
          exact absurd (marks marked) new
      have wider := List.Subset.trans marks (List.subset_cons_self id entered)
      by_cases skipped : id ∈ ids
      · have still (other : ObjectId) : other ∈ more ↔ other ∈ id :: entered ∨ other ∈ ids := by
          rw [joined, List.mem_cons, or_assoc]
          exact (or_iff_right_of_imp fun here => here ▸ Or.inr skipped).symm
        rcases explored wider (Or.inl within) still with ⟨later, again, same⟩
        subst within
        rcases again.of_closedIn closed skipped fun _ member => (joined _).mpr (Or.inr member) with
          ⟨rfl, rfl⟩
        exact ⟨later, .known (Or.inl ((joined id).mpr (Or.inr skipped))), same⟩
      · have both (other : ObjectId) :
            other ∈ id :: more ↔ other ∈ id :: entered ∨ other ∈ ids := by
          rw [List.mem_cons, List.mem_cons, joined, or_assoc]
        rcases explored wider (Or.inl within) both with ⟨later, again, same⟩
        have fresh : id ∉ more := fun old => ((joined id).mp old).elim new skipped
        exact ⟨later, .object fresh object again, same⟩
  | done => exact ⟨more, .done, joined⟩
  | next held first _ firstExplored restExplored =>
      have within := start.resolve_right fun ⟨_, _, impossible⟩ => by cases impossible
      rcases firstExplored marks (Or.inl within) joined with ⟨middle, here, same⟩
      rcases restExplored (List.Subset.trans marks first.subset) (Or.inl within) same with
        ⟨later, rest, whole⟩
      exact ⟨later, .next held here rest, whole⟩

end Explores

/-- What was bound in a scope and is linked led, when fresh, only to what is
linked. -/
theorem BoundIn.closedIn (bound : BoundIn scope fresh graph) (closed : graph.Closed) :
    fresh.ClosedIn scope graph.linked := by
  intro id marked position slot held
  rcases bound id position with same | ⟨reference, written, target, meant, replaced⟩
  · have linked := closed.isLinked_of_slot? marked (same.trans held)
    cases slot with
    | primitive type => exact ⟨none, rfl, nofun⟩
    | unresolved reference => cases linked
    | object next =>
        refine ⟨some (next, scope), rfl, ?_⟩
        rintro _ _ ⟨⟩
        exact (graph.isLinked_object _).mp linked
  · cases held.symm.trans written
    rcases Option.map_eq_some_iff.mp meant with ⟨⟨next, home⟩, resolved, rfl⟩
    refine ⟨some (next, home), by rw [Graph.target, resolved], ?_⟩
    rintro _ _ ⟨⟩
    exact (graph.isLinked_object _).mp (closed.isLinked_of_slot? marked replaced)

namespace Linking

variable {family : Scope → Prop} {base : Nat}

/-- While a unit is linked, linking an object ends as an exploration of the unit
as it was compiled says, past what is linked by then. -/
theorem outcome_of_explores (linking : Linking family scope base fresh graph)
    (sound : fresh.Sound family) (founded : fresh.Founded scope)
    (explores : fresh.Explores scope (.slot (.object id)) graph.linked found after) :
    (graph.linkObject scope id).outcome = LooseEnd.outcome fresh found := by
  have leftover : Leftover { fresh with linked := graph.linked } graph := {
    linked := List.Subset.refl _
    advances := fun id position => by
      rcases linking.bound id position with same | ⟨reference, written, target, _, replaced⟩
      · exact Or.inl same
      · exact Or.inr ⟨reference, target, written, replaced⟩
    shapes := linking.shapes
    same := rfl }
  have marked : ({ fresh with linked := graph.linked } : Graph).Founded scope :=
    fun kind name id home resolved =>
      (founded kind name id home resolved).imp_left fun old => linking.marks old
  have agree : LeadsAlike { fresh with linked := graph.linked } graph scope id :=
    leadsAlike_of_boundIn linking.bound marked (fun _ _ _ found => found) (Or.inl rfl)
  exact outcome_linkObject_of_explores sound linking.member linking.sound.idle leftover agree
    explores

/-- While a unit is linked, linking an object ends as it would end alone. -/
theorem outcome_eq (linking : Linking family scope base fresh graph) (sound : fresh.Sound family)
    (founded : fresh.Founded scope) (id : ObjectId) :
    (graph.linkObject scope id).outcome = (fresh.linkObject scope id).outcome := by
  rcases exists_explores fresh scope (.object id) fresh.linked with ⟨found, after, explores⟩
  have joined (other : ObjectId) :
      other ∈ graph.linked ↔ other ∈ fresh.linked ∨ other ∈ graph.linked :=
    ⟨Or.inr, fun either => either.elim (fun old => linking.marks old) fun now => now⟩
  rcases explores.skip founded (linking.bound.closedIn linking.sound.closed) (List.Subset.refl _)
    (Or.inl rfl) joined with ⟨_, again, _⟩
  rw [linking.outcome_of_explores sound founded again,
    (Linking.refl sound linking.member linking.enclosed).outcome_of_explores sound founded explores]

end Linking

end Graph

end IdlLinker
