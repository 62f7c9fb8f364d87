import IdlLinker.Graph.Reach
import IdlLinker.Proofs.Visit

/-!
# Bound references and resolved regions

A reference is bound when the object that it stands for is in its place.  Where
no reference is reached, there is nothing to resolve: whatever scope such an
object is entered in, the walk succeeds and replaces nothing, and no later
linking changes what is reached from it.
-/

namespace IdlLinker

namespace Graph

/-- A reference of the fresh graph is bound: the object that it stands for in a
scope is in its place. -/
def BoundAt (fresh graph : Graph) (home : Scope) (id : ObjectId) (position : Nat)
    (reference : Reference) : Prop :=
  fresh.slot? id position = some (.unresolved reference) ∧
    ∃ target, home.lookup reference.kind reference.name = some target ∧
      graph.slot? id position = some (.object target)

/-- No reference is reached from an object. -/
def ResolvedFrom (graph : Graph) (id : ObjectId) : Prop :=
  ∀ other, graph.Reaches id other → ∀ position reference,
    graph.slot? other position ≠ some (.unresolved reference)

variable {before after graph : Graph} {id next other : ObjectId} {position : Nat}

theorem slot?_eq_of_objects (same : after.objects = before.objects) (id : ObjectId)
    (position : Nat) : after.slot? id position = before.slot? id position := by
  rw [slot?, slot?, object?, object?, same]

namespace ResolvedFrom

theorem of_holds (resolved : graph.ResolvedFrom id) (holds : graph.Holds id next) :
    graph.ResolvedFrom next :=
  fun other reaches => resolved other (reaches.head holds)

theorem slot?_ne (resolved : graph.ResolvedFrom id) (position : Nat) (reference : Reference) :
    graph.slot? id position ≠ some (.unresolved reference) :=
  resolved id Relation.ReflTransGen.refl position reference

/-- Where nothing is unresolved, later graphs lead to the same objects. -/
theorem reaches_of_advances (resolved : before.ResolvedFrom id)
    (advances : ∀ id position, Advances (before.slot? id position) (after.slot? id position))
    (reaches : after.Reaches id other) : before.Reaches id other := by
  induction reaches with
  | refl => exact Relation.ReflTransGen.refl
  | @tail holder child _ holds hypothesis =>
      rcases holds with ⟨position, held⟩
      apply hypothesis.tail
      refine ⟨position, ?_⟩
      rcases advances holder position with same | ⟨reference, next, found, _⟩
      · rwa [← same]
      · exact absurd found (resolved holder hypothesis position reference)

/-- What is resolved stays resolved. -/
theorem of_advances (resolved : before.ResolvedFrom id)
    (advances : ∀ id position, Advances (before.slot? id position) (after.slot? id position)) :
    after.ResolvedFrom id := by
  intro other reaches position reference held
  have reached := resolved.reaches_of_advances advances reaches
  rcases advances other position with same | ⟨_, next, _, replaced⟩
  · exact resolved other reached position reference (same ▸ held)
  · rw [replaced] at held
    cases held

theorem congr (resolved : before.ResolvedFrom id) (same : after.objects = before.objects) :
    after.ResolvedFrom id :=
  resolved.of_advances fun id position => Or.inl (slot?_eq_of_objects same id position)

/-- Storing an object that is resolved leaves other objects resolved. -/
theorem setSlot (resolved : graph.ResolvedFrom other) (stored : graph.ResolvedFrom next) :
    (graph.setSlot id position (.object next)).ResolvedFrom other := by
  have reached (child : ObjectId)
      (reaches : (graph.setSlot id position (.object next)).Reaches other child) :
      graph.Reaches other child ∨ graph.Reaches next child := by
    induction reaches with
    | refl => exact Or.inl Relation.ReflTransGen.refl
    | @tail holder child _ holds hypothesis =>
        rcases holds with ⟨index, held⟩
        rcases graph.slot?_setSlot_cases held with ⟨_, same⟩ | ⟨_, old⟩
        · cases same
          exact Or.inr Relation.ReflTransGen.refl
        · rcases hypothesis with first | second
          · exact Or.inl (first.tail ⟨index, old⟩)
          · exact Or.inr (second.tail ⟨index, old⟩)
  intro child reaches index reference held
  rcases graph.slot?_setSlot_cases held with ⟨_, same⟩ | ⟨_, old⟩
  · cases same
  · rcases reached child reaches with first | second
    · exact resolved child first index reference old
    · exact stored child second index reference old

end ResolvedFrom

end Graph

/-- A walk of what is resolved succeeds and replaces nothing. -/
theorem Visit.objects_eq_of_resolved {scope : Scope} {task : Task} {before after : Graph}
    {outcome : Except CompileError Unit} (visit : Visit scope task before after outcome)
    (resolved : before.ResolvedFrom task.subject) :
    outcome = .ok () ∧ after.objects = before.objects := by
  induction visit with
  | rest marked => exact ⟨rfl, rfl⟩
  | body unmarked object _ settled => exact settled resolved
  | done => exact ⟨rfl, rfl⟩
  | skip nowhere _ settled => exact settled resolved
  | @follow scope home id next owner graph between after position others outcome leads
      entry _ entered settled =>
      rcases Graph.slot?_of_leadsTo_some leads with ⟨held, _⟩ | ⟨reference, held, _⟩
      · have same := (entered (resolved.of_holds ⟨position, held⟩)).2
        have stored : between.setSlot id position (.object next) = between := by
          apply Graph.setSlot_eq_self
          rw [Graph.slot?_eq_of_objects same]
          exact held
        rw [stored] at settled
        rcases settled (resolved.congr same) with ⟨ended, objects⟩
        exact ⟨ended, objects.trans same⟩
      · exact absurd held (resolved.slot?_ne position reference)
  | stuck unresolved =>
      rcases Graph.slot?_of_leadsTo_error unresolved with ⟨reference, held, _, _⟩
      exact absurd held (resolved.slot?_ne _ reference)
  | @fail scope home id next owner graph after position others error leads entry entered =>
      rcases Graph.slot?_of_leadsTo_some leads with ⟨held, _⟩ | ⟨reference, held, _⟩
      · cases (entered (resolved.of_holds ⟨position, held⟩)).1
      · exact absurd held (resolved.slot?_ne position reference)

end IdlLinker
