import IdlLinker.Proofs.Alike
import IdlLinker.Proofs.Bodies
import IdlLinker.Proofs.HomeScopes

/-!
# Objects with and without a home

What is compiled on its own and belongs to no registered object has no home.
When all calls on it and on its parts name one scope, its references are bound
in that scope, and nothing else leads to it.  So wherever a call looks, after
any calls before it, a position holds what was compiled there or what its
reference stands for in one scope: the home of its object, or the scope of the
calls.  And what the call meets there is met in that scope too, unless it has
nothing left to resolve.
-/

namespace IdlLinker

/-- Objects that hold one another and have no home, and a scope for them. -/
structure Sheltered (family : Scope → Prop) (owner : ObjectId → ObjectId) (fresh : Graph)
    (apart : ObjectId → Prop) (shelter : Scope) : Prop where
  member : family shelter
  holds : ∀ holder id, fresh.Holds holder id → (apart id ↔ apart holder)
  homeless : ∀ id, apart id → ∀ home, ¬ Home family owner home id

/-- Every position is as it was, or holds an object that is not without a home;
where the holder is, the reference stands for that object in its scope. -/
def BoundApart (fresh : Graph) (apart : ObjectId → Prop) (shelter : Scope) (graph : Graph) :
    Prop :=
  ∀ id position, graph.slot? id position = fresh.slot? id position ∨
    ∃ reference target, fresh.slot? id position = some (.unresolved reference) ∧
      graph.slot? id position = some (.object target) ∧ ¬ apart target ∧
      (apart id → ∃ home, shelter.resolve reference.kind reference.name = some (target, home))

/-- The scope that the references of an object are bound in. -/
def Lodges (family : Scope → Prop) (owner : ObjectId → ObjectId) (apart : ObjectId → Prop)
    (shelter scope : Scope) (id : ObjectId) : Prop :=
  Home family owner scope id ∨ apart id ∧ scope = shelter

variable {family : Scope → Prop} {owner : ObjectId → ObjectId} {fresh graph now between : Graph}
  {apart : ObjectId → Prop} {shelter scope home : Scope} {id next root : ObjectId} {position : Nat}

namespace BoundApart

theorem refl (fresh : Graph) (apart : ObjectId → Prop) (shelter : Scope) :
    BoundApart fresh apart shelter fresh :=
  fun _ _ => Or.inl rfl

theorem congr (bound : BoundApart fresh apart shelter graph)
    (same : between.objects = graph.objects) : BoundApart fresh apart shelter between := by
  intro id position
  rw [Graph.slot?_eq_of_objects same]
  exact bound id position

/-- What is without a home is met only where its holder is walked. -/
theorem onward (bound : BoundApart fresh apart shelter graph) (homes : Homes family owner fresh)
    (sheltered : Sheltered family owner fresh apart shelter) (ready : Ready family scope graph)
    (inside : apart id → scope = shelter)
    (leads : graph.leadsTo scope id position = .ok (some (next, home))) (apartNext : apart next) :
    home = shelter := by
  rcases Graph.slot?_of_leadsTo_some leads with ⟨held, rfl⟩ | ⟨reference, held, resolved⟩
  · apply inside
    rcases bound id position with same | ⟨_, target, _, found, settled, _⟩
    · exact (sheltered.holds id next ⟨position, same ▸ held⟩).mp apartNext
    · rw [held] at found
      cases found
      exact absurd apartNext settled
  · have nextHome := homes.home_of_resolve ready.sound ready.member resolved
    exact absurd nextHome (sheltered.homeless next apartNext home)

/-- Storing what a position leads to. -/
theorem stored (bound : BoundApart fresh apart shelter graph) (homes : Homes family owner fresh)
    (sheltered : Sheltered family owner fresh apart shelter) (ready : Ready family scope graph)
    (inside : apart id → scope = shelter)
    (leads : graph.leadsTo scope id position = .ok (some (next, home)))
    (advances : Advances (graph.slot? id position) (between.slot? id position))
    (entered : BoundApart fresh apart shelter between) :
    BoundApart fresh apart shelter (between.setSlot id position (.object next)) := by
  have put := Graph.slot?_setSlot_of_leadsTo leads advances
  rcases Graph.slot?_of_leadsTo_some leads with ⟨held, rfl⟩ | ⟨reference, held, resolved⟩
  · rw [held] at advances
    rwa [between.setSlot_eq_self advances.eq_of_object]
  · have nextHome := homes.home_of_resolve ready.sound ready.member resolved
    have written : fresh.slot? id position = some (.unresolved reference) := by
      rcases bound id position with same | ⟨_, _, _, found, _⟩
      · rw [← same, held]
      · rw [held] at found
        cases found
    intro other index
    by_cases here : other = id ∧ index = position
    · rcases here with ⟨rfl, rfl⟩
      refine Or.inr ⟨reference, next, written, put, ?_, ?_⟩
      · exact fun apartNext => sheltered.homeless next apartNext home nextHome
      · exact fun apartHere => ⟨home, inside apartHere ▸ resolved⟩
    · rw [between.slot?_setSlot_of_ne here]
      exact entered other index

end BoundApart

/-- A walk that enters what is without a home in its scope only keeps positions
bound. -/
theorem Visit.boundApart {task : Task} {before after : Graph} {outcome : Except CompileError Unit}
    (visit : Visit scope task before after outcome) (homes : Homes family owner fresh)
    (sheltered : Sheltered family owner fresh apart shelter) (ready : Ready family scope before)
    (bound : BoundApart fresh apart shelter before)
    (inside : apart task.subject → scope = shelter) : BoundApart fresh apart shelter after := by
  induction visit with
  | rest marked => exact bound
  | @body scope id graph after outcome spec unmarked object _ settled =>
      exact settled (ready.mark id) (bound.congr rfl) inside
  | done => exact bound
  | skip nowhere _ settled => exact settled ready bound inside
  | @follow scope home id next owner graph between after position others outcome leads
      entry _ entered settled =>
      have onward := ready.onward leads
      have kept := entered onward bound (bound.onward homes sheltered ready inside leads)
      exact settled (ready.resume leads entry.sameShapes (entry.wellTyped onward))
        (bound.stored homes sheltered ready inside leads (entry.advances id position) kept) inside
  | stuck unresolved => exact bound
  | fail leads _ entered =>
      exact entered (ready.onward leads) bound (bound.onward homes sheltered ready inside leads)

namespace Lodges

theorem member (lodges : Lodges family owner apart shelter scope id)
    (sheltered : Sheltered family owner fresh apart shelter) : family scope := by
  rcases lodges with home | ⟨_, rfl⟩
  · exact home.1
  · exact sheltered.member

/-- What the graph as compiled leads to lodges where it is met. -/
theorem onward (lodges : Lodges family owner apart shelter scope id)
    (homes : Homes family owner fresh) (sheltered : Sheltered family owner fresh apart shelter)
    (sound : SoundScopes fresh family)
    (leads : fresh.leadsTo scope id position = .ok (some (next, home))) :
    Lodges family owner apart shelter home next := by
  rcases Graph.slot?_of_leadsTo_some leads with ⟨held, rfl⟩ | ⟨reference, _, resolved⟩
  · rcases lodges with homeOf | ⟨apartHere, same⟩
    · exact Or.inl ((homes.home_of_holds ⟨position, held⟩).mpr homeOf)
    · exact Or.inr ⟨(sheltered.holds id next ⟨position, held⟩).mpr apartHere, same⟩
  · exact Or.inl (homes.home_of_resolve sound (lodges.member sheltered) resolved)

/-- A position holds what was compiled there, or what its reference stands for
in the scope of its object. -/
theorem slot?_cases (lodges : Lodges family owner apart shelter scope id)
    (bound : Bound family owner fresh graph) (boundApart : BoundApart fresh apart shelter graph)
    (position : Nat) : graph.slot? id position = fresh.slot? id position ∨
      ∃ reference target home, fresh.slot? id position = some (.unresolved reference) ∧
        scope.resolve reference.kind reference.name = some (target, home) ∧
        graph.slot? id position = some (.object target) := by
  rcases lodges with homeOf | ⟨apartHere, rfl⟩
  · rcases bound id position with same | ⟨reference, target, binding⟩
    · exact Or.inl same
    · rcases binding.resolves scope homeOf with ⟨home, resolved⟩
      exact Or.inr ⟨reference, target, home, binding.written, resolved, binding.held⟩
  · rcases boundApart id position with same | ⟨reference, target, written, held, _, resolves⟩
    · exact Or.inl same
    · rcases resolves apartHere with ⟨home, resolved⟩
      exact Or.inr ⟨reference, target, home, written, resolved, held⟩

/-- What a graph leads to in the scope of an object is met in the same scope as
in the graph as compiled, or has nothing to resolve. -/
theorem scope_of_leadsTo (lodges : Lodges family owner apart shelter scope id)
    (homes : Homes family owner fresh) (sheltered : Sheltered family owner fresh apart shelter)
    (sound : SoundScopes fresh family) (bound : Bound family owner fresh graph) {other : Scope}
    (first : fresh.leadsTo scope id position = .ok (some (next, home)))
    (second : graph.leadsTo scope id position = .ok (some (next, other))) :
    graph.ResolvedFrom next ∨ other = home := by
  rcases Graph.slot?_of_leadsTo_some second with ⟨held, rfl⟩ | ⟨reference, held, resolved⟩
  · rcases bound.safe_of_holds homes held with nothing | alike
    · exact Or.inl nothing
    · right
      rcases Graph.slot?_of_leadsTo_some first with ⟨_, same⟩ | ⟨reference, _, resolved⟩
      · exact same.symm
      · have nextHome := homes.home_of_resolve sound (lodges.member sheltered) resolved
        have holderHome := (alike home).mp nextHome
        rcases lodges with homeOf | ⟨apartHere, _⟩
        · exact homes.home_unique homeOf holderHome
        · exact absurd holderHome (sheltered.homeless id apartHere home)
  · right
    rw [Graph.leadsTo_eq_of_slot? ((bound.written_of_unresolved held).trans held.symm),
      second] at first
    cases first
    rfl

/-- From an object in its scope, the graph as compiled and the graph that calls
have made of it lead to the same objects. -/
theorem leadsAlike (lodges : Lodges family owner apart shelter scope root)
    (homes : Homes family owner fresh) (sheltered : Sheltered family owner fresh apart shelter)
    (sound : SoundScopes fresh family) (bound : Bound family owner fresh now)
    (boundApart : BoundApart fresh apart shelter now) :
    Graph.LeadsAlike { fresh with linked := now.linked } now scope root := by
  intro left right id met _ position
  have agree : Lodges family owner apart shelter left id ∧
      (now.ResolvedFrom id ∨ right = left) := by
    induction met with
    | root => exact ⟨lodges, Or.inr rfl⟩
    | @next left right leftHome rightHome id next position met unlinked first second hypothesis =>
        rcases hypothesis unlinked with ⟨lodged, scopes⟩
        refine ⟨lodged.onward homes sheltered sound first, ?_⟩
        rcases scopes with nothing | rfl
        · rcases Graph.slot?_of_leadsTo_some second with ⟨held, _⟩ | ⟨reference, held, _⟩
          · exact Or.inl (nothing.of_holds ⟨position, held⟩)
          · exact absurd held (nothing.slot?_ne position reference)
        · exact lodged.scope_of_leadsTo homes sheltered sound bound first second
  rcases agree with ⟨lodged, scopes⟩
  change (fresh.leadsTo left id position).map _ = _
  rcases lodged.slot?_cases bound boundApart position with
    same | ⟨reference, meant, home, written, resolved, held⟩
  · rcases scopes with nothing | rfl
    · -- no reference stands here, so the scope does not matter
      rw [Graph.leadsTo, Graph.leadsTo, same]
      cases here : fresh.slot? id position with
      | none => rfl
      | some slot =>
          cases slot with
          | primitive type => rfl
          | object next => rfl
          | unresolved reference =>
              exact absurd (same.trans here) (nothing.slot?_ne position reference)
    · rw [Graph.leadsTo_eq_of_slot? same]
  · rw [Graph.leadsTo_of_slot?_object held, Graph.leadsTo, written]
    simp only [Graph.target, resolved]
    rfl

end Lodges

end IdlLinker
