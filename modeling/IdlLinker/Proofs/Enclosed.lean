import IdlLinker.Proofs.Resolved
import IdlLinker.Proofs.Standing

/-!
# Linking the objects of a unit

The objects made for a unit lead to one another, and names lead from them to
objects of the unit or to objects that are linked.  A walk enters the latter
only to find them marked, so all of it happens in the scope of the unit: every
reference it replaces is bound there, and where it fails it names a reference
of the unit that does not resolve there.
-/

namespace IdlLinker

namespace Graph

/-- Objects from a bound on hold objects from that bound on, and in their scope
the references that they hold resolve to such objects, registered by the scope
itself, or to linked ones. -/
structure Enclosed (scope : Scope) (base : Nat) (fresh : Graph) : Prop where
  inside : ∀ holder child, base ≤ holder → fresh.Holds holder child → base ≤ child
  outside : ∀ holder position reference, base ≤ holder →
    fresh.slot? holder position = some (.unresolved reference) →
      ∀ id home, scope.resolve reference.kind reference.name = some (id, home) →
        id ∈ fresh.linked ∨ home = scope ∧ base ≤ id

/-- Every position is as it was when fresh, or bound in a scope. -/
def BoundIn (scope : Scope) (fresh graph : Graph) : Prop :=
  ∀ id position, graph.slot? id position = fresh.slot? id position ∨
    ∃ reference, BoundAt fresh graph scope id position reference

/-- Every reference that an object from a bound on holds resolves. -/
def Resolvable (scope : Scope) (base : Nat) (fresh : Graph) : Prop :=
  ∀ id position reference, base ≤ id → fresh.slot? id position = some (.unresolved reference) →
    (scope.resolve reference.kind reference.name).isSome

/-- An error starts at a reference that an object from a bound on holds and that
does not resolve. -/
def Dangles (scope : Scope) (base : Nat) (fresh : Graph) (error : CompileError) : Prop :=
  ∃ id position reference, base ≤ id ∧ fresh.slot? id position = some (.unresolved reference) ∧
    scope.resolve reference.kind reference.name = none ∧
      error.root = .unresolvedReference reference.name reference.line

end Graph

/-- A task is about an object of the unit, in its scope, or enters an object
that is linked. -/
def Task.Within (scope : Scope) (base : Nat) (home : Scope) (graph : Graph) : Task → Prop
  | .enter id => id ∈ graph.linked ∨ home = scope ∧ base ≤ id
  | .settle id _ _ => home = scope ∧ base ≤ id

namespace Graph

variable {scope home : Scope} {base : Nat} {fresh graph between : Graph} {id next : ObjectId}
  {position : Nat}

theorem BoundIn.refl (scope : Scope) (graph : Graph) : BoundIn scope graph graph :=
  fun _ _ => Or.inl rfl

/-- A reference that is still in its place was there when fresh. -/
theorem BoundIn.written (bound : BoundIn scope fresh graph) {reference : Reference}
    (held : graph.slot? id position = some (.unresolved reference)) :
    fresh.slot? id position = some (.unresolved reference) := by
  rcases bound id position with same | ⟨_, _, target, _, replaced⟩
  · rw [← same, held]
  · rw [held] at replaced
    cases replaced

@[simp]
theorem root_ownError (owner : Option String) (error : CompileError) :
    (ownError owner error).root = error.root := by
  cases owner <;> rfl

/-- Where every reference resolves, nothing ends with an error. -/
theorem Resolvable.eq_ok (resolvable : Resolvable scope base fresh)
    {outcome : Except CompileError Unit}
    (dangles : ∀ error, outcome = .error error → Dangles scope base fresh error) :
    outcome = .ok () := by
  cases outcome with
  | ok done => rfl
  | error error =>
      rcases dangles error rfl with ⟨id, position, reference, above, held, missing, _⟩
      have resolved := resolvable id position reference above held
      rw [missing] at resolved
      cases resolved

/-- What an object of the unit leads to is of the unit or linked. -/
theorem Enclosed.within (enclosed : Enclosed scope base fresh) (bound : BoundIn scope fresh graph)
    (marks : fresh.linked ⊆ graph.linked) (above : base ≤ id)
    (leads : graph.leadsTo scope id position = .ok (some (next, home))) :
    (Task.enter next).Within scope base home graph := by
  rcases slot?_of_leadsTo_some leads with ⟨held, rfl⟩ | ⟨reference, unbound, resolved⟩
  · rcases bound id position with same | ⟨reference, written, target, found, replaced⟩
    · rw [same] at held
      exact Or.inr ⟨rfl, enclosed.inside id next above ⟨position, held⟩⟩
    · rw [held] at replaced
      cases replaced
      rcases Option.map_eq_some_iff.mp found with ⟨⟨_, home⟩, resolved, rfl⟩
      rcases enclosed.outside id position reference above written _ home resolved with
        marked | ⟨_, inner⟩
      · exact Or.inl (marks marked)
      · exact Or.inr ⟨rfl, inner⟩
  · rcases enclosed.outside id position reference above (bound.written unbound) _ home resolved
      with marked | inner
    · exact Or.inl (marks marked)
    · exact Or.inr inner

/-- Storing what a position leads to binds it. -/
theorem BoundIn.setSlot (bound : BoundIn scope fresh graph) (onward : BoundIn scope fresh between)
    (leads : graph.leadsTo scope id position = .ok (some (next, home)))
    (advanced : Advances (graph.slot? id position) (between.slot? id position)) :
    BoundIn scope fresh (between.setSlot id position (.object next)) := by
  have stored := slot?_setSlot_of_leadsTo leads advanced
  intro other index
  by_cases here : other = id ∧ index = position
  · rcases here with ⟨rfl, rfl⟩
    rcases slot?_of_leadsTo_some leads with ⟨held, _⟩ | ⟨reference, held, resolved⟩
    · rcases bound other index with same | ⟨reference, written, target, found, replaced⟩
      · exact Or.inl (by rw [stored, ← same, held])
      · rw [held] at replaced
        cases replaced
        exact Or.inr ⟨reference, written, next, found, stored⟩
    · have found : scope.lookup reference.kind reference.name = some next := by
        rw [Scope.lookup, resolved]
        rfl
      exact Or.inr ⟨reference, bound.written held, next, found, stored⟩
  · rcases onward other index with same | ⟨reference, written, target, found, replaced⟩
    · exact Or.inl ((between.slot?_setSlot_of_ne here _).trans same)
    · exact Or.inr ⟨reference, written, target, found,
        (between.slot?_setSlot_of_ne here _).trans replaced⟩

end Graph

namespace Visit

variable {scope home : Scope} {base : Nat} {fresh : Graph} {task : Task} {before after : Graph}
  {outcome : Except CompileError Unit}

/-- A walk in a unit binds references in its scope, and fails only at one that
does not resolve there. -/
theorem boundIn (visit : Visit home task before after outcome)
    (enclosed : Graph.Enclosed scope base fresh) (marks : fresh.linked ⊆ before.linked)
    (bound : Graph.BoundIn scope fresh before) (within : task.Within scope base home before) :
    Graph.BoundIn scope fresh after ∧
      ∀ error, outcome = .error error → Graph.Dangles scope base fresh error := by
  induction visit with
  | rest marked => exact ⟨bound, nofun⟩
  | body unmarked object _ settled =>
      rcases within with marked | inner
      · exact absurd marked unmarked
      · exact settled (List.Subset.trans marks (List.subset_cons_self _ _)) bound inner
  | done => exact ⟨bound, nofun⟩
  | skip nowhere _ settled => exact settled marks bound within
  | follow leads entry _ entered settled =>
      rcases within with ⟨rfl, above⟩
      -- the object entered is in the unit, or it was marked before the unit was linked
      have onward := (entered marks bound (enclosed.within bound marks above leads)).1
      exact settled (List.Subset.trans marks entry.linked_subset)
        (bound.setSlot onward leads (entry.advances _ _)) ⟨rfl, above⟩
  | stuck unresolved =>
      rcases within with ⟨rfl, above⟩
      refine ⟨bound, ?_⟩
      rintro _ ⟨⟩
      rcases Graph.slot?_of_leadsTo_error unresolved with ⟨reference, held, missing, rfl⟩
      refine ⟨_, _, reference, above, bound.written held, missing, ?_⟩
      rw [Graph.root_ownError]
      rfl
  | fail leads _ entered =>
      rcases within with ⟨rfl, above⟩
      rcases entered marks bound (enclosed.within bound marks above leads) with ⟨onward, dangles⟩
      refine ⟨onward, ?_⟩
      rintro _ ⟨⟩
      rcases dangles _ rfl with ⟨holder, position, reference, inner, held, missing, root⟩
      refine ⟨holder, position, reference, inner, held, missing, ?_⟩
      rw [Graph.root_ownError, root]

end Visit

namespace Graph

/-- What holds of a graph while the objects of a unit are linked one after
another. -/
structure Linking (family : Scope → Prop) (scope : Scope) (base : Nat) (fresh graph : Graph) :
    Prop where
  sound : graph.Sound family
  member : family scope
  enclosed : Enclosed scope base fresh
  shapes : fresh.SameShapes graph
  marks : fresh.linked ⊆ graph.linked
  bound : BoundIn scope fresh graph

namespace Linking

variable {family : Scope → Prop} {scope : Scope} {base : Nat} {fresh graph : Graph} {id : ObjectId}

theorem refl (sound : fresh.Sound family) (member : family scope)
    (enclosed : Enclosed scope base fresh) : Linking family scope base fresh fresh where
  sound := sound
  member := member
  enclosed := enclosed
  shapes _ := rfl
  marks := List.Subset.refl _
  bound := BoundIn.refl scope fresh

/-- Linking an object of the unit goes on with the linking of the unit. -/
theorem linkObject (linking : Linking family scope base fresh graph) (above : base ≤ id) :
    Linking family scope base fresh (graph.linkObject scope id).graph ∧
      ∀ error, (graph.linkObject scope id).outcome = .error error →
        Dangles scope base fresh error := by
  have progress := progress_linkObject linking.sound.idle scope id
  have shapes := sameShapes_linkObject linking.sound.idle scope id
  rcases exists_visit_linkObject linking.sound.idle scope id with
    ⟨visited, outcome, visit, equation⟩
  rcases visit.boundIn linking.enclosed linking.marks linking.bound (Or.inr ⟨rfl, above⟩) with
    ⟨bound, dangles⟩
  have kept := linking.sound.linkObject linking.member id
  refine ⟨⟨kept, linking.member, linking.enclosed, ?_, ?_, ?_⟩, ?_⟩
  · exact fun other => (shapes other).trans (linking.shapes other)
  · exact List.Subset.trans linking.marks progress.linked
  · rw [equation]
    intro other position
    simp only [BoundAt, slot?, object?, objects_rollback]
    exact bound other position
  · rw [equation]
    exact dangles

end Linking

end Graph

namespace Module

open IdlLinker.Graph

variable {family : Scope → Prop} {scope : Scope} {base : Nat} {fresh graph : Graph}

/-- Linking the objects of a unit one after another goes on with the linking of
the unit, and fails only at a reference that does not resolve. -/
theorem linkAll_linking (linking : Linking family scope base fresh graph)
    (order : List (String × EntityKind × ObjectId))
    (above : ∀ entry ∈ order, base ≤ entry.2.2) :
    Linking family scope base fresh (linkAll scope order graph).2.graph ∧
      ∀ error, (linkAll scope order graph).2.outcome = .error error →
        Dangles scope base fresh error := by
  induction order generalizing graph with
  | nil => exact ⟨linking, nofun⟩
  | cons entry rest hypothesis =>
      rcases entry with ⟨name, kind, id⟩
      rcases linking.linkObject (above _ List.mem_cons_self) with ⟨onward, dangles⟩
      cases ended : (graph.linkObject scope id).outcome with
      | ok done =>
          rw [linkAll_of_ok ended]
          exact hypothesis onward fun other member => above other (List.mem_cons_of_mem _ member)
      | error error =>
          rw [linkAll_of_error ended]
          rw [ended] at dangles
          exact ⟨onward, dangles⟩

end Module

end IdlLinker
