import IdlLinker.Proofs.Typed
import IdlLinker.Proofs.Visit.Depth

/-!
# Retracing a walk

Take back the marks of a walk but keep the objects it put into positions, and
walk again: the second walk enters the same objects in the same order, ends in
the same way and replaces nothing.  Where the first walk went well the second
one meets no references, so it may even be made in another scope.
-/

namespace IdlLinker

/-- A graph with the marks from before a walk, and with what the walk left on
the objects it marked. -/
structure Retraces (before after again : Graph) : Prop where
  linked : again.linked = before.linked
  shapes : before.SameShapes again
  agree : ∀ id ∈ after.linked, id ∉ before.linked → again.object? id = after.object? id

/-- The object whose positions are settled is marked, and as the walk left
it. -/
def Task.Held (before after again : Graph) : Task → Prop
  | enter _ => True
  | settle id _ _ => id ∈ before.linked ∧ again.object? id = after.object? id

namespace Graph

theorem withLinked_eq_self {graph : Graph} {linked : List ObjectId}
    (same : graph.linked = linked) : { graph with linked } = graph := by
  rw [← same]

theorem slot?_eq_of_object? {first second : Graph} {id : ObjectId}
    (same : first.object? id = second.object? id) (position : Nat) :
    first.slot? id position = second.slot? id position := by
  rw [slot?, slot?, same]

theorem leadsTo_eq_of_slot? {first second : Graph} {id : ObjectId} {position : Nat}
    (same : first.slot? id position = second.slot? id position) (scope : Scope) :
    first.leadsTo scope id position = second.leadsTo scope id position := by
  rw [leadsTo, leadsTo, same]

theorem leadsTo_of_slot?_object {graph : Graph} {id next : ObjectId} {position : Nat}
    (held : graph.slot? id position = some (.object next)) (scope : Scope) :
    graph.leadsTo scope id position = .ok (some (next, scope)) := by
  rw [leadsTo, held]
  rfl

/-- A position that leads nowhere still does when it has advanced. -/
theorem leadsTo_none_of_advances {graph after : Graph} {scope : Scope} {id : ObjectId}
    {position : Nat} (nowhere : graph.leadsTo scope id position = .ok none)
    (advances : Advances (graph.slot? id position) (after.slot? id position)) (other : Scope) :
    after.leadsTo other id position = .ok none := by
  rcases slot?_of_leadsTo_none nowhere with empty | ⟨type, found⟩
  · rcases advances with same | ⟨_, _, impossible, _⟩
    · rw [leadsTo, same, empty]
    · rw [empty] at impossible
      cases impossible
  · rw [found] at advances
    rw [leadsTo, advances.eq_of_primitive]
    rfl

end Graph

namespace Visit

variable {scope : Scope} {task : Task} {before after again : Graph}
  {outcome : Except CompileError Unit}

/-- A walk from such a graph marks the same objects, replaces nothing, and ends
in the same way; in the same scope also when that is an error. -/
theorem retrace (visit : Visit scope task before after outcome)
    (retraces : Retraces before after again) (held : task.Held before after again)
    (other : Scope) (same : ∀ error, outcome = .error error → other = scope) :
    Visit other task again { again with linked := after.linked } outcome := by
  induction visit generalizing again other with
  | @rest scope id graph marked =>
      rw [Graph.withLinked_eq_self retraces.linked]
      apply Visit.rest
      rcases marked with marked | absent
      · exact Or.inl (retraces.linked ▸ marked)
      · have shape := retraces.shapes id
        rw [absent] at shape
        exact Or.inr (by simpa using shape)
  | @body scope id graph after outcome spec unmarked object walk settled =>
      rcases retraces.shapes.exists_object object with ⟨changed, found, shape⟩
      have marked : id ∈ after.linked := walk.linked_subset List.mem_cons_self
      apply Visit.body (retraces.linked ▸ unmarked) found
      rw [Spec.ownerAt_eq_of_shape shape, Spec.length_slots_eq_of_shape shape]
      apply settled _ _ other same
      · constructor
        · rw [Graph.linked_mark, Graph.linked_mark, retraces.linked]
        · exact retraces.shapes
        · intro later member fresh
          exact retraces.agree later member fun old => fresh (List.mem_cons_of_mem _ old)
      · exact ⟨List.mem_cons_self, retraces.agree id marked unmarked⟩
  | done =>
      rw [Graph.withLinked_eq_self retraces.linked]
      exact Visit.done
  | @skip scope id owner graph after position others outcome nowhere walk settled =>
      have still := Graph.leadsTo_none_of_advances nowhere (walk.advances id position) other
      rw [← Graph.leadsTo_eq_of_slot? (Graph.slot?_eq_of_object? held.2 position)] at still
      exact Visit.skip still (settled retraces held other same)
  | @follow scope home id next owner graph between after position others outcome leads
      entry walk entered settled =>
      rcases held with ⟨marked, kept⟩
      have stored : again.slot? id position = some (.object next) := by
        have advances := walk.advances id position
        rw [Graph.slot?_setSlot_of_leadsTo leads (entry.advances id position)] at advances
        rw [Graph.slot?_eq_of_object? kept, advances.eq_of_object]
      have first : Retraces graph between again := by
        refine ⟨retraces.linked, retraces.shapes, ?_⟩
        intro new member fresh
        have different : new ≠ id := fun equal => fresh (equal ▸ marked)
        have left : after.object? new = between.object? new := by
          rw [walk.object?_eq member fun equal => different (Option.some.inj equal).symm,
            between.object?_setSlot_of_ne different]
        rw [← left]
        exact retraces.agree new (walk.linked_subset member) fresh
      have second : Retraces (between.setSlot id position (.object next)) after
          { again with linked := between.linked } := by
        refine ⟨rfl, ?_, ?_⟩
        · intro target
          rw [Graph.shape_setSlot, entry.shape_eq]
          exact retraces.shapes target
        · intro new member fresh
          exact retraces.agree new member fun old => fresh (entry.linked_subset old)
      have unchanged : Graph.setSlot { again with linked := between.linked } id position
          (.object next) = { again with linked := between.linked } :=
        Graph.setSlot_eq_self _ stored
      apply Visit.follow (Graph.leadsTo_of_slot?_object stored other)
      · exact entered first trivial other (by intro error impossible; cases impossible)
      · rw [unchanged]
        exact settled second ⟨entry.linked_subset marked, kept⟩ other same
  | @stuck scope id owner graph position others error unresolved =>
      rw [Graph.withLinked_eq_self retraces.linked]
      cases same _ rfl
      apply Visit.stuck
      rw [Graph.leadsTo_eq_of_slot? (Graph.slot?_eq_of_object? held.2 position)]
      exact unresolved
  | @fail scope home id next owner graph after position others error leads entry entered =>
      rcases held with ⟨marked, kept⟩
      cases same _ rfl
      have untouched : again.object? id = graph.object? id :=
        kept.trans (entry.object?_eq marked (by simp [Task.holder?]))
      apply Visit.fail
      · rw [Graph.leadsTo_eq_of_slot? (Graph.slot?_eq_of_object? untouched position)]
        exact leads
      · exact entered retraces trivial home fun _ _ => rfl

end Visit

namespace Graph

/-- After a failure the same objects are linked as before, and the same linking
fails again with the same error and changes nothing. -/
theorem linkObject_retry {graph : Graph} {scope : Scope} {id : ObjectId} {error : CompileError}
    (idle : graph.pending = none) (failed : (graph.linkObject scope id).outcome = .error error) :
    (graph.linkObject scope id).graph.linked = graph.linked ∧
      (graph.linkObject scope id).graph.linkObject scope id = graph.linkObject scope id := by
  rcases exists_visit_linkObject idle scope id with ⟨visited, outcome, visit, equation⟩
  rw [equation] at failed ⊢
  cases failed
  refine ⟨rfl, ?_⟩
  have retraces : Retraces graph visited (graph.rollback visited (.error error)) :=
    ⟨rfl, visit.shape_eq, fun _ _ _ => rfl⟩
  have again := visit.retrace retraces trivial scope fun _ _ => rfl
  have still : (graph.rollback visited (.error error)).pending = none :=
    visit.pending_eq.trans idle
  rw [linkObject_of_visit still again]
  rfl

end Graph

end IdlLinker
