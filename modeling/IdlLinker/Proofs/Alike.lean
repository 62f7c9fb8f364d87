import IdlLinker.Proofs.Enclosed
import IdlLinker.Proofs.Frozen
import IdlLinker.Proofs.Retrace

/-!
# Walks that go alike

Two graphs have the same marks, and one of them has objects where the other
still has references.  Walks of the two may meet these places in different
scopes.  As long as everything they meet leads to the same object in both,
they go the same way, end in the same way, and make the same graph of what they
link.  In a scope that keeps linked what it includes it is enough that it finds
the objects that were put in.
-/

namespace IdlLinker

namespace Scope

variable {first second scope home : Scope} {kind : EntityKind} {name : String} {id : ObjectId}

/-- A scope that includes nothing finds a name only among its own. -/
theorem resolve_of_includes_nil (flat : scope.includes = [])
    (resolved : scope.resolve kind name = some (id, home)) :
    home = scope ∧ ∃ segment rest, Name.segments name.toList = segment :: rest ∧
      Record.get? (scope.table kind) (String.ofList (Name.joinSegments (segment :: rest))) =
        some id := by
  unfold resolve at resolved
  generalize Name.segments name.toList = segments at resolved
  cases segments with
  | nil => cases resolved
  | cons segment rest =>
      simp only [resolveSegments, flat] at resolved
      split at resolved
      · next own found =>
          cases resolved
          exact ⟨rfl, segment, rest, rfl, found⟩
      · split at resolved <;> cases resolved

/-- A scope that registers all that another one does finds all that the other
one finds, if this includes nothing. -/
theorem lookup_of_get? (flat : first.includes = [])
    (registers : ∀ kind name id, Record.get? (first.table kind) name = some id →
      Record.get? (second.table kind) name = some id)
    (kind : EntityKind) (name : String) (id : ObjectId)
    (found : first.lookup kind name = some id) : second.lookup kind name = some id := by
  rcases Option.map_eq_some_iff.mp found with ⟨⟨_, home⟩, resolved, rfl⟩
  rcases resolve_of_includes_nil flat resolved with ⟨_, segment, rest, segments, own⟩
  have registered := registers kind _ _ own
  simp only [lookup, resolve, segments, resolveSegments, registered, Option.map_some]

end Scope

namespace Graph

/-- What walks from an object meet in two graphs, and the scopes in which they
meet it.  What is linked is met but not walked. -/
inductive Meets (before after : Graph) (home : Scope) (root : ObjectId) :
    Scope → Scope → ObjectId → Prop where
  | root : Meets before after home root home home root
  | next {left right leftHome rightHome : Scope} {id next : ObjectId} {position : Nat}
      (met : Meets before after home root left right id)
      (unlinked : id ∉ before.linked)
      (first : before.leadsTo left id position = .ok (some (next, leftHome)))
      (second : after.leadsTo right id position = .ok (some (next, rightHome))) :
      Meets before after home root leftHome rightHome next

/-- Whatever walks from an object meet in two graphs leads to the same objects,
and fails to in the same way. -/
def LeadsAlike (before after : Graph) (home : Scope) (root : ObjectId) : Prop :=
  ∀ left right id, Meets before after home root left right id → id ∉ before.linked →
    ∀ position, (before.leadsTo left id position).map (Option.map Prod.fst) =
      (after.leadsTo right id position).map (Option.map Prod.fst)

/-- What a scope finds in the scopes that it includes is linked. -/
def Founded (graph : Graph) (scope : Scope) : Prop :=
  ∀ kind name id home, scope.resolve kind name = some (id, home) →
    id ∈ graph.linked ∨ home = scope

/-- A graph with the marks of another that differs from it in references that
became objects. -/
structure Leftover (before after : Graph) : Prop extends Relinked before after where
  same : after.linked = before.linked

/-- Two graphs that walks from such a pair have come to.  A position is still
as it was in both of them, or holds the same linked object. -/
structure Alike (before after left right : Graph) : Prop where
  linked : right.linked = left.linked
  marks : before.linked ⊆ left.linked
  shapes : left.SameShapes right
  slots : ∀ id position,
    left.slot? id position = before.slot? id position ∧
        right.slot? id position = after.slot? id position ∨
      ∃ next ∈ left.linked, left.slot? id position = some (.object next) ∧
        right.slot? id position = some (.object next)

variable {before after left right : Graph} {home scope : Scope} {root id : ObjectId}
  {position : Nat}

theorem Leftover.alike (leftover : Leftover before after) : Alike before after before after where
  linked := leftover.same
  marks := List.Subset.refl _
  shapes := leftover.shapes
  slots _ _ := Or.inl ⟨rfl, rfl⟩

end Graph

/-- A task of two walks that go alike: an object to enter is marked in both or
met by both, and one whose positions are settled is met and was not linked. -/
def Task.Met (before after : Graph) (home : Scope) (root : ObjectId) (left right : Scope)
    (graph : Graph) : Task → Prop
  | .enter id => id ∈ graph.linked ∨ Graph.Meets before after home root left right id
  | .settle id _ _ => Graph.Meets before after home root left right id ∧ id ∉ before.linked

namespace Graph

variable {before after left right between : Graph} {home scope other leftHome : Scope}
  {root id next : ObjectId} {position : Nat}

namespace Alike

theorem mark (alike : Alike before after left right) (id : ObjectId) :
    Alike before after (left.mark id) (right.mark id) where
  linked := by rw [linked_mark, linked_mark, alike.linked]
  marks := List.Subset.trans alike.marks (List.subset_cons_self _ _)
  shapes := alike.shapes
  slots other index := by
    rcases alike.slots other index with kept | ⟨next, marked, held, found⟩
    · exact Or.inl kept
    · exact Or.inr ⟨next, List.mem_cons_of_mem _ marked, held, found⟩

/-- A position that leads nowhere, or to an error, does so in both graphs. -/
theorem leadsTo_eq (alike : Alike before after left right)
    (agree : LeadsAlike before after home root)
    (met : Meets before after home root scope other id) (unlinked : id ∉ before.linked)
    (nowhere : ∀ found, left.leadsTo scope id position ≠ .ok (some found)) :
    right.leadsTo other id position = left.leadsTo scope id position := by
  rcases alike.slots id position with ⟨old, kept⟩ | ⟨next, _, held, _⟩
  · have same := agree scope other id met unlinked position
    rw [← leadsTo_eq_of_slot? old, ← leadsTo_eq_of_slot? kept] at same
    cases first : left.leadsTo scope id position with
    | error error =>
        rw [first] at same
        cases second : right.leadsTo other id position with
        | error stuck =>
            rw [second] at same
            simpa [Except.map] using same.symm
        | ok found => simp [second, Except.map] at same
    | ok found =>
        cases found with
        | some found => exact absurd first (nowhere found)
        | none =>
            rw [first] at same
            cases second : right.leadsTo other id position with
            | error stuck => simp [second, Except.map] at same
            | ok found =>
                rw [second] at same
                cases found with
                | none => rfl
                | some found => simp [Except.map] at same
  · exact absurd (leadsTo_of_slot?_object held scope) (nowhere _)

/-- A position that leads to an object does so in both graphs, and both walks go
on to it. -/
theorem exists_leadsTo (alike : Alike before after left right)
    (agree : LeadsAlike before after home root)
    (met : Meets before after home root scope other id) (unlinked : id ∉ before.linked)
    (leads : left.leadsTo scope id position = .ok (some (next, leftHome))) :
    ∃ rightHome, right.leadsTo other id position = .ok (some (next, rightHome)) ∧
      (Task.enter next).Met before after home root leftHome rightHome left := by
  rcases alike.slots id position with ⟨old, kept⟩ | ⟨target, marked, held, found⟩
  · have same := agree scope other id met unlinked position
    have first : before.leadsTo scope id position = .ok (some (next, leftHome)) := by
      rw [← leads, leadsTo_eq_of_slot? old]
    rw [first] at same
    cases second : after.leadsTo other id position with
    | error error => simp [second, Except.map] at same
    | ok found =>
        cases found with
        | none => simp [second, Except.map] at same
        | some found =>
            obtain ⟨target, rightHome⟩ := found
            simp only [second, Except.map, Option.map_some, Except.ok.injEq, Option.some.injEq]
              at same
            subst same
            refine ⟨rightHome, ?_, Or.inr (met.next unlinked first second)⟩
            rw [leadsTo_eq_of_slot? kept, second]
  · rw [leadsTo_of_slot?_object held] at leads
    cases leads
    exact ⟨other, leadsTo_of_slot?_object found other, Or.inl marked⟩

/-- Both walks store the object that they went on to. -/
theorem setSlot (alike : Alike before after left right) {next : ObjectId}
    (marked : next ∈ left.linked)
    (first : (left.setSlot id position (.object next)).slot? id position = some (.object next))
    (second : (right.setSlot id position (.object next)).slot? id position =
      some (.object next)) :
    Alike before after (left.setSlot id position (.object next))
      (right.setSlot id position (.object next)) where
  linked := alike.linked
  marks := alike.marks
  shapes target := by
    rw [shape_setSlot, shape_setSlot]
    exact alike.shapes target
  slots holder index := by
    by_cases here : holder = id ∧ index = position
    · rcases here with ⟨rfl, rfl⟩
      exact Or.inr ⟨next, marked, first, second⟩
    · rw [left.slot?_setSlot_of_ne here, right.slot?_setSlot_of_ne here]
      exact alike.slots holder index

/-- What is linked in the end is the same in both graphs. -/
theorem object?_eq (alike : Alike before after left right) (leftover : Leftover before after)
    (closed : left.Closed) (marked : id ∈ left.linked) :
    right.object? id = left.object? id := by
  cases object : left.object? id with
  | none =>
      have shape := alike.shapes id
      rw [object] at shape
      simpa using shape
  | some spec =>
      rcases alike.shapes.exists_object object with ⟨changed, found, shape⟩
      have same : changed.slots = spec.slots := by
        apply List.ext_getElem?
        intro position
        have slots : right.slot? id position = left.slot? id position := by
          rcases alike.slots id position with ⟨old, kept⟩ | ⟨next, _, held, stored⟩
          · rcases leftover.advances id position with stays | ⟨reference, _, written, _⟩
            · rw [kept, stays, old]
            · rw [written] at old
              exact absurd old (closed.slot?_ne_unresolved marked position reference)
          · rw [held, stored]
        rwa [slot?, slot?, object, found, Option.bind_some, Option.bind_some] at slots
      rw [found, Spec.eq_of_shape_of_slots shape same]

end Alike

end Graph

namespace Visit

variable {scope other home : Scope} {task : Task} {before after left right visited : Graph}
  {outcome : Except CompileError Unit} {root : ObjectId}

/-- An object that a walk enters is marked in the end. -/
theorem mem_linked {id : ObjectId} (visit : Visit scope (.enter id) left visited (.ok ()))
    (present : (left.object? id).isSome) : id ∈ visited.linked := by
  cases visit with
  | rest marked =>
      rcases marked with marked | absent
      · exact marked
      · rw [absent] at present
        cases present
  | body unmarked object settled => exact settled.linked_subset List.mem_cons_self

/-- Where everything met leads alike, two walks go the same way. -/
theorem alike (visit : Visit scope task left visited outcome) {family : Scope → Prop}
    (ready : Ready family scope left) (agree : Graph.LeadsAlike before after home root)
    (alike : Graph.Alike before after left right)
    (met : task.Met before after home root scope other left) :
    ∃ reached, Visit other task right reached outcome ∧
      Graph.Alike before after visited reached := by
  -- a stored object is linked in the scope at hand, and one that a reference
  -- stands for in its home: so the second walk has a scope of its own
  induction visit generalizing other right with
  | @rest scope id graph marked =>
      refine ⟨right, Visit.rest ?_, alike⟩
      rcases marked with marked | absent
      · exact Or.inl (alike.linked ▸ marked)
      · have shape := alike.shapes id
        rw [absent] at shape
        exact Or.inr (by simpa using shape)
  | @body scope id graph visited outcome spec unmarked object walk settled =>
      rcases met with marked | met
      · exact absurd marked unmarked
      · rcases alike.shapes.exists_object object with ⟨changed, found, shape⟩
        rcases settled (ready.mark id) (alike.mark id)
          ⟨met, fun old => unmarked (alike.marks old)⟩ with ⟨reached, again, kept⟩
        refine ⟨reached, Visit.body (alike.linked ▸ unmarked) found ?_, kept⟩
        rwa [Spec.ownerAt_eq_of_shape shape, Spec.length_slots_eq_of_shape shape]
  | done => exact ⟨right, Visit.done, alike⟩
  | @skip scope id owner graph visited position others outcome nowhere walk settled =>
      have same : right.leadsTo other id position = graph.leadsTo scope id position :=
        alike.leadsTo_eq agree met.1 met.2 (by simp [nowhere])
      rcases settled ready alike met with ⟨reached, again, kept⟩
      exact ⟨reached, Visit.skip (same.trans nowhere) again, kept⟩
  | @follow scope leftHome id next owner graph between visited position others outcome leads
      entry walk entered settled =>
      rcases alike.exists_leadsTo agree met.1 met.2 leads with ⟨rightHome, second, onward⟩
      rcases entered (ready.onward leads) alike onward with ⟨middle, entryAgain, keptEntry⟩
      have marked := entry.mem_linked (ready.present leads)
      have resumed := ready.resume leads entry.sameShapes (entry.wellTyped (ready.onward leads))
      have stored := keptEntry.setSlot marked
        (Graph.slot?_setSlot_of_leadsTo leads (entry.advances id position))
        (Graph.slot?_setSlot_of_leadsTo second (entryAgain.advances id position))
      rcases settled resumed stored met with ⟨reached, again, kept⟩
      exact ⟨reached, Visit.follow second entryAgain again, kept⟩
  | @stuck scope id owner graph position others error unresolved =>
      have same : right.leadsTo other id position = graph.leadsTo scope id position :=
        alike.leadsTo_eq agree met.1 met.2 (by simp [unresolved])
      exact ⟨right, Visit.stuck (same.trans unresolved), alike⟩
  | @fail scope leftHome id next owner graph visited position others error leads entry entered =>
      rcases alike.exists_leadsTo agree met.1 met.2 leads with ⟨rightHome, second, onward⟩
      rcases entered (ready.onward leads) alike onward with ⟨reached, again, kept⟩
      exact ⟨reached, Visit.fail second again, kept⟩

end Visit

namespace Graph

variable {family : Scope → Prop} {before after : Graph} {home scope first second : Scope}
  {root id : ObjectId}

/-- Two linkings end in the same way, with the same marks, and the same objects
are linked. -/
structure EndAlike (left right : Linked Unit) : Prop where
  outcome : right.outcome = left.outcome
  linked : right.graph.linked = left.graph.linked
  objects : ∀ id ∈ left.graph.linked, right.graph.object? id = left.graph.object? id

/-- A scope that includes nothing finds only what it registers itself. -/
theorem founded_of_includes_nil (graph : Graph) (flat : scope.includes = []) :
    graph.Founded scope := by
  intro kind name id home resolved
  exact Or.inr (Scope.resolve_of_includes_nil flat resolved).1

/-- Where everything met leads alike, linking an object ends alike. -/
theorem Sound.linkObject_endAlike (sound : before.Sound family) (member : family home)
    (idle : after.pending = none) (leftover : Leftover before after)
    (agree : LeadsAlike before after home root) :
    EndAlike (before.linkObject home root) (after.linkObject home root) := by
  rcases exists_visit_linkObject sound.idle home root with ⟨visited, outcome, visit, equation⟩
  have kept := sound.linkObject member root
  rcases visit.alike (sound.ready member) agree leftover.alike (Or.inr .root) with
    ⟨reached, again, alike⟩
  have secondEquation := linkObject_of_visit idle again
  cases outcome with
  | ok done =>
      rw [equation] at kept
      rw [equation, secondEquation]
      exact ⟨rfl, alike.linked, fun id marked => alike.object?_eq leftover kept.closed marked⟩
  | error error =>
      have left := (relinked_linkObject sound.idle home root).later
      have right := leftover.later.trans (relinked_linkObject idle home root).later
      refine ⟨by rw [equation, secondEquation], ?_, ?_⟩
      · rw [equation, secondEquation]
        exact leftover.same
      · intro id marked
        rw [equation] at marked
        rcases Option.isSome_iff_exists.mp (sound.present id marked) with ⟨spec, object⟩
        rw [left.object?_eq sound.closed marked object, right.object?_eq sound.closed marked object]

/-- Walks in a scope that keeps linked what it includes stay in that scope until
they meet what is linked. -/
theorem Founded.enclosed (founded : before.Founded scope) : Enclosed scope 0 before where
  inside _ _ _ _ := Nat.zero_le _
  outside _ _ _ _ _ id home resolved :=
    (founded _ _ id home resolved).imp_right fun same => ⟨same, Nat.zero_le _⟩

theorem Founded.home_of_leadsTo (founded : before.Founded scope) {graph : Graph}
    {position : Nat} {next : ObjectId}
    (leads : graph.leadsTo scope id position = .ok (some (next, home))) :
    home = scope ∨ next ∈ before.linked := by
  rcases slot?_of_leadsTo_some leads with ⟨_, same⟩ | ⟨reference, _, resolved⟩
  · exact Or.inl same
  · exact (founded _ _ _ _ resolved).symm

theorem Founded.home_of_meets (founded : before.Founded scope)
    (start : home = scope ∨ root ∈ before.linked) {left right : Scope}
    (met : Meets before after home root left right id) :
    (left = scope ∧ right = scope) ∨ id ∈ before.linked := by
  induction met with
  | root => exact start.imp_left fun same => ⟨same, same⟩
  | next _ unlinked first second hypothesis =>
      rcases hypothesis with ⟨sameLeft, sameRight⟩ | marked
      · rw [sameLeft] at first
        rw [sameRight] at second
        rcases founded.home_of_leadsTo first with leftHome | marked
        · exact (founded.home_of_leadsTo second).imp_left fun rightHome => ⟨leftHome, rightHome⟩
        · exact Or.inr marked
      · exact absurd marked unlinked

/-- What was bound in a scope leads alike in a scope that finds the same objects
and more. -/
theorem leadsAlike_of_boundIn (bound : BoundIn first before after)
    (founded : before.Founded second)
    (finds : ∀ kind name id, first.lookup kind name = some id → second.lookup kind name = some id)
    (start : home = second ∨ root ∈ before.linked) : LeadsAlike before after home root := by
  intro left right id met unlinked position
  rcases founded.home_of_meets start met with ⟨rfl, rfl⟩ | marked
  · rcases bound id position with same | ⟨reference, written, target, found, replaced⟩
    · rw [leadsTo_eq_of_slot? same]
    · have resolved := finds _ _ _ found
      rcases Option.map_eq_some_iff.mp resolved with ⟨⟨_, inner⟩, meant, rfl⟩
      rw [leadsTo_of_slot?_object replaced, leadsTo, written]
      simp only [target, meant]
      rfl
  · exact absurd marked unlinked

end Graph

end IdlLinker
