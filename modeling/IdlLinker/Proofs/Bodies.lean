import Mathlib.Data.Set.Card
import Mathlib.Logic.Relation
import IdlLinker.Proofs.Unseen

/-!
# Every linking ends and enters an object once

A visit is written down together with the objects whose bodies it runs, in
order.  Whatever the graph is, a link call goes through one such visit, which is
finite, and the bodies that the linker records are those of the visit, also
where the call fails.  Running a body marks the object, and marks are not taken
back before the call ends; so no body is run twice, and none of an object that
was linked before.

A visit replaces slots under way and may come back to them in another scope.
But then what stands there is linked already, so every body it runs belongs to
an object that could be reached before the call.
-/

namespace IdlLinker

/-! ## Vocabulary -/

/-- A visit, with the objects whose bodies it runs in order. -/
inductive Walk :
    Scope → Task → Graph → List ObjectId → Graph → Except CompileError Unit → Prop where
  | rest {scope : Scope} {id : ObjectId} {graph : Graph}
      (marked : id ∈ graph.linked ∨ graph.object? id = none) :
      Walk scope (.enter id) graph [] graph (.ok ())
  | body {scope : Scope} {id : ObjectId} {graph after : Graph} {bodies : List ObjectId}
      {outcome : Except CompileError Unit} {spec : Spec Slot}
      (unmarked : id ∉ graph.linked)
      (object : graph.object? id = some spec)
      (settled : Walk scope (.settle id spec.ownerAt (List.range spec.slots.length))
        (graph.mark id) bodies after outcome) :
      Walk scope (.enter id) graph (id :: bodies) after outcome
  | done {scope : Scope} {id : ObjectId} {owner : Nat → Option String} {graph : Graph} :
      Walk scope (.settle id owner []) graph [] graph (.ok ())
  | skip {scope : Scope} {id : ObjectId} {owner : Nat → Option String} {graph after : Graph}
      {bodies : List ObjectId} {position : Nat} {others : List Nat}
      {outcome : Except CompileError Unit}
      (nowhere : graph.leadsTo scope id position = .ok none)
      (settled : Walk scope (.settle id owner others) graph bodies after outcome) :
      Walk scope (.settle id owner (position :: others)) graph bodies after outcome
  | follow {scope home : Scope} {id next : ObjectId} {owner : Nat → Option String}
      {graph between after : Graph} {first second : List ObjectId} {position : Nat}
      {others : List Nat} {outcome : Except CompileError Unit}
      (leads : graph.leadsTo scope id position = .ok (some (next, home)))
      (entered : Walk home (.enter next) graph first between (.ok ()))
      (settled : Walk scope (.settle id owner others)
        (between.setSlot id position (.object next)) second after outcome) :
      Walk scope (.settle id owner (position :: others)) graph (first ++ second) after outcome
  | stuck {scope : Scope} {id : ObjectId} {owner : Nat → Option String} {graph : Graph}
      {position : Nat} {others : List Nat} {error : CompileError}
      (unresolved : graph.leadsTo scope id position = .error error) :
      Walk scope (.settle id owner (position :: others)) graph [] graph
        (.error (Graph.ownError (owner position) error))
  | fail {scope home : Scope} {id next : ObjectId} {owner : Nat → Option String}
      {graph after : Graph} {bodies : List ObjectId} {position : Nat} {others : List Nat}
      {error : CompileError}
      (leads : graph.leadsTo scope id position = .ok (some (next, home)))
      (entered : Walk home (.enter next) graph bodies after (.error error)) :
      Walk scope (.settle id owner (position :: others)) graph bodies after
        (.error (Graph.ownError (owner position) error))

namespace Graph

/-- From an object in a scope, one position leads to another object and the
scope that it is linked in. -/
def Onward (graph : Graph) (here there : ObjectId × Scope) : Prop :=
  ∃ position, graph.leadsTo here.2 here.1 position = .ok (some there)

end Graph

namespace LinkCall

/-- The walk of a link call.  The fields of a group are settled one by one, and
give no name to errors. -/
inductive Walks (graph : Graph) (scope : Scope) :
    LinkCall → List ObjectId → Graph → Except CompileError Unit → Prop where
  | entered {call : LinkCall} {root : ObjectId} {home : Scope} {bodies : List ObjectId}
      {after : Graph} {outcome : Except CompileError Unit}
      (enters : call.root? scope = some (root, home))
      (walk : Walk home (.enter root) graph bodies after outcome) :
      Walks graph scope call bodies after outcome
  | nothing {call : LinkCall} {outcome : Except CompileError Unit} (ofSpec : call.OfSpec)
      (enters : call.root? scope = none)
      (answer : call.perform graph scope = ⟨graph, outcome, []⟩) :
      Walks graph scope call [] graph outcome
  | group {id : ObjectId} {part : GroupPart} {spec : Spec Slot} {bodies : List ObjectId}
      {after : Graph} {outcome : Except CompileError Unit}
      (object : graph.object? id = some spec)
      (walk : Walk scope (.settle id (fun _ => none) (spec.groupPositions part)) graph bodies
        after outcome) :
      Walks graph scope (.fields id part) bodies after outcome
  | noGroup {id : ObjectId} {part : GroupPart} (absent : graph.object? id = none) :
      Walks graph scope (.fields id part) [] graph (.ok ())

/-- Where a link call begins: at its spec, or at what the fields of a group lead
to. -/
def Starts (graph : Graph) (scope : Scope) : LinkCall → ObjectId × Scope → Prop
  | fields id part, place => ∃ spec, graph.object? id = some spec ∧
      ∃ position ∈ spec.groupPositions part, graph.leadsTo scope id position = .ok (some place)
  | call, place => call.root? scope = some place

/-- The objects not linked yet that a link call leads to, through slots and
through names as they resolve. -/
def unlinkedReached (graph : Graph) (scope : Scope) (call : LinkCall) : Set ObjectId :=
  {id | (graph.object? id).isSome ∧ id ∉ graph.linked ∧
    ∃ start home, call.Starts graph scope start ∧
      Relation.ReflTransGen graph.Onward start (id, home)}

end LinkCall

/-! ## Walks and visits -/

namespace Walk

variable {scope : Scope} {task : Task} {before after start now : Graph}
  {bodies : List ObjectId} {outcome : Except CompileError Unit} {id : ObjectId}

theorem visit (walk : Walk scope task before bodies after outcome) :
    Visit scope task before after outcome := by
  induction walk with
  | rest marked => exact .rest marked
  | body unmarked object _ settled => exact .body unmarked object settled
  | done => exact .done
  | skip nowhere _ settled => exact .skip nowhere settled
  | follow leads _ _ entered settled => exact .follow leads entered settled
  | stuck unresolved => exact .stuck unresolved
  | fail leads _ entered => exact .fail leads entered

/-- The bodies run are the marks made, in order. -/
theorem linked_eq (walk : Walk scope task before bodies after outcome) :
    after.linked = bodies.reverse ++ before.linked := by
  induction walk with
  | rest marked => rfl
  | body unmarked object _ settled => simpa using settled
  | done => rfl
  | skip nowhere _ settled => exact settled
  | follow leads _ _ entered settled => simpa [entered] using settled
  | stuck unresolved => rfl
  | fail leads _ entered => exact entered

/-- No body is run twice, and none of what is marked. -/
theorem nodup (walk : Walk scope task before bodies after outcome) :
    bodies.Nodup ∧ ∀ id ∈ bodies, id ∉ before.linked := by
  rcases walk.visit.exists_fresh with ⟨fresh, marks, distinct, new⟩
  rw [walk.linked_eq] at marks
  cases List.append_cancel_right marks
  exact ⟨List.nodup_reverse.mp distinct, fun id member => new id (List.mem_reverse.mpr member)⟩

/-- What is marked, or not there, is not walked. -/
theorem eq_nil_of_marked (walk : Walk scope (.enter id) before bodies after outcome)
    (marked : id ∈ before.linked ∨ before.object? id = none) : bodies = [] := by
  cases walk with
  | rest _ => rfl
  | body unmarked object _ =>
      rcases marked with marked | absent
      · exact absurd marked unmarked
      · rw [absent] at object
        cases object

/-- Bodies are run of objects of the graph. -/
theorem present (walk : Walk scope task before bodies after outcome) :
    ∀ id ∈ bodies, (before.object? id).isSome := by
  induction walk with
  | rest marked => simp
  | body unmarked object _ settled =>
      intro other member
      rcases List.mem_cons.mp member with rfl | inside
      · rw [object]
        rfl
      · exact settled other inside
  | done => simp
  | skip nowhere _ settled => exact settled
  | @follow scope home id next owner graph between after first second position others outcome
      leads entry _ entered settled =>
      intro other member
      rcases List.mem_append.mp member with earlier | later
      · exact entered other earlier
      · have shape : (between.setSlot id position (.object next)).object? other |>.isSome :=
          settled other later
        rwa [← Option.isSome_map, Graph.shape_setSlot, entry.visit.shape_eq,
          Option.isSome_map] at shape
  | stuck unresolved => simp
  | fail leads _ entered => exact entered

end Walk

/-- A visit runs its bodies in one order. -/
theorem Visit.exists_walk {scope : Scope} {task : Task} {before after : Graph}
    {outcome : Except CompileError Unit} (visit : Visit scope task before after outcome) :
    ∃ bodies, Walk scope task before bodies after outcome := by
  induction visit with
  | rest marked => exact ⟨_, .rest marked⟩
  | body unmarked object _ settled =>
      rcases settled with ⟨bodies, walk⟩
      exact ⟨_, .body unmarked object walk⟩
  | done => exact ⟨_, .done⟩
  | skip nowhere _ settled =>
      rcases settled with ⟨bodies, walk⟩
      exact ⟨_, .skip nowhere walk⟩
  | follow leads _ _ entered settled =>
      rcases entered with ⟨first, entry⟩
      rcases settled with ⟨second, walk⟩
      exact ⟨_, .follow leads entry walk⟩
  | stuck unresolved => exact ⟨_, .stuck unresolved⟩
  | fail leads _ entered =>
      rcases entered with ⟨bodies, walk⟩
      exact ⟨_, .fail leads walk⟩

/-! ## What a walk reaches -/

namespace Graph

/-- Since the start of a call a position is as it was, or has nothing left to
walk. -/
def Held (start now : Graph) : Prop :=
  ∀ id position, now.slot? id position = start.slot? id position ∨
    ∃ next, now.slot? id position = some (.object next) ∧
      (next ∈ now.linked ∨ now.object? next = none)

variable {start now between : Graph} {scope home : Scope} {id next : ObjectId} {position : Nat}

theorem Held.refl (start : Graph) : Held start start := fun _ _ => Or.inl rfl

theorem Held.mark (held : Held start now) (id : ObjectId) : Held start (now.mark id) := by
  intro other index
  rcases held other index with same | ⟨next, found, finished⟩
  · exact Or.inl same
  · exact Or.inr ⟨next, found, finished.imp_left (List.mem_cons_of_mem _)⟩

/-- Storing what was entered leaves nothing to walk there. -/
theorem Held.setSlot (held : Held start between)
    (stored : (between.setSlot id position (.object next)).slot? id position =
      some (.object next))
    (finished : next ∈ between.linked ∨ between.object? next = none) :
    Held start (between.setSlot id position (.object next)) := by
  have stays (other : ObjectId) (done : other ∈ between.linked ∨ between.object? other = none) :
      other ∈ (between.setSlot id position (.object next)).linked ∨
        (between.setSlot id position (.object next)).object? other = none := by
    refine done.imp_right fun absent => ?_
    rw [object?_setSlot]
    split
    · rw [absent, Option.map_none]
    · exact absent
  intro other index
  by_cases here : other = id ∧ index = position
  · rcases here with ⟨rfl, rfl⟩
    exact Or.inr ⟨next, stored, stays next finished⟩
  · rw [between.slot?_setSlot_of_ne here]
    rcases held other index with same | ⟨target, found, done⟩
    · exact Or.inl same
    · exact Or.inr ⟨target, found, stays target done⟩

/-- What a position leads to could be reached at the start, or has nothing left
to walk. -/
theorem Held.leadsTo (held : Held start now)
    (leads : now.leadsTo scope id position = .ok (some (next, home))) :
    start.leadsTo scope id position = .ok (some (next, home)) ∨
      (next ∈ now.linked ∨ now.object? next = none) := by
  rcases held id position with same | ⟨target, found, finished⟩
  · left
    rwa [← leadsTo_eq_of_slot? same]
  · right
    rw [leadsTo_of_slot?_object found] at leads
    cases leads
    exact finished

end Graph

/-- What a task that is walked in a scope could reach at the start. -/
def Task.Finds (start : Graph) (scope : Scope) : Task → ObjectId → Prop
  | enter id, found => ∃ home, Relation.ReflTransGen start.Onward (id, scope) (found, home)
  | settle id _ positions, found => ∃ position ∈ positions, ∃ there home,
      start.leadsTo scope id position = .ok (some there) ∧
        Relation.ReflTransGen start.Onward there (found, home)

theorem Task.Finds.of_tail {start : Graph} {scope : Scope} {id found : ObjectId}
    {owner : Nat → Option String} {position : Nat} {others : List Nat}
    (finds : (Task.settle id owner others).Finds start scope found) :
    (Task.settle id owner (position :: others)).Finds start scope found := by
  rcases finds with ⟨index, member, rest⟩
  exact ⟨index, List.mem_cons_of_mem _ member, rest⟩

/-- Every body that a walk runs could be reached at the start. -/
theorem Walk.finds {scope : Scope} {task : Task} {start now after : Graph}
    {bodies : List ObjectId} {outcome : Except CompileError Unit}
    (walk : Walk scope task now bodies after outcome) (held : Graph.Held start now) :
    (outcome = .ok () → Graph.Held start after) ∧
      ∀ found ∈ bodies, task.Finds start scope found := by
  -- only what ended well is walked on from, so nothing is asked of a failure
  have entering {home : Scope} {id next : ObjectId} {owner : Nat → Option String}
      {graph between : Graph} {first : List ObjectId} {position : Nat} {others : List Nat}
      {scope : Scope} {ended : Except CompileError Unit}
      (held : Graph.Held start graph)
      (leads : graph.leadsTo scope id position = .ok (some (next, home)))
      (entry : Walk home (.enter next) graph first between ended)
      (found : ∀ body ∈ first, (Task.enter next).Finds start home body) :
      ∀ body ∈ first, (Task.settle id owner (position :: others)).Finds start scope body := by
    intro body member
    rcases held.leadsTo leads with before | finished
    · rcases found body member with ⟨last, reaches⟩
      exact ⟨position, List.mem_cons_self, _, last, before, reaches⟩
    · rw [entry.eq_nil_of_marked finished] at member
      cases member
  induction walk with
  | rest marked => exact ⟨fun _ => held, by simp⟩
  | @body scope id graph after bodies outcome spec unmarked object _ settled =>
      rcases settled (held.mark id) with ⟨kept, found⟩
      refine ⟨kept, fun other member => ?_⟩
      rcases List.mem_cons.mp member with rfl | inside
      · exact ⟨scope, Relation.ReflTransGen.refl⟩
      · rcases found other inside with ⟨position, _, there, home, leads, reaches⟩
        exact ⟨home, reaches.head ⟨position, leads⟩⟩
  | done => exact ⟨fun _ => held, by simp⟩
  | skip nowhere _ settled =>
      rcases settled held with ⟨kept, found⟩
      exact ⟨kept, fun other member => (found other member).of_tail⟩
  | @follow scope home id next owner graph between after first second position others outcome
      leads entry _ entered settled =>
      rcases entered held with ⟨keptBetween, foundFirst⟩
      have finished : next ∈ between.linked ∨ between.object? next = none := by
        cases entry with
        | rest marked => exact marked
        | body _ _ walk => exact Or.inl (walk.visit.linked_subset List.mem_cons_self)
      have stored := Graph.slot?_setSlot_of_leadsTo leads (entry.visit.advances id position)
      rcases settled ((keptBetween rfl).setSlot stored finished) with ⟨kept, foundSecond⟩
      refine ⟨kept, fun body member => ?_⟩
      rcases List.mem_append.mp member with earlier | later
      · exact entering held leads entry foundFirst body earlier
      · exact (foundSecond body later).of_tail
  | stuck unresolved => exact ⟨nofun, by simp⟩
  | fail leads entry entered =>
      exact ⟨nofun, entering held leads entry (entered held).2⟩

/-! ## Link calls -/

/-- A linking has run these bodies, and ends with an outcome, with the objects of
a graph, and with its marks where that is no failure. -/
structure Linked.EndsAs (linked : Linked Unit) (bodies : List ObjectId) (after : Graph)
    (ended : Except CompileError Unit) : Prop where
  bodies : linked.bodies = bodies
  outcome : linked.outcome = ended
  objects : linked.graph.objects = after.objects
  marks : ended = .ok () → linked.graph.linked = after.linked

theorem Linked.EndsAs.after {linked : Linked Unit} {bodies : List ObjectId} {after : Graph}
    {ended : Except CompileError Unit} (ends : linked.EndsAs bodies after ended)
    (earlier : List ObjectId) : (linked.after earlier).EndsAs (earlier ++ bodies) after ended :=
  ⟨congrArg (earlier ++ ·) ends.bodies, ends.outcome, ends.objects, ends.marks⟩

namespace Graph

variable {graph : Graph} {scope : Scope} {id : ObjectId}

/-- Linking an object goes through a walk, and records its bodies. -/
theorem exists_walk_linkObject (idle : graph.pending = none) (scope : Scope) (id : ObjectId) :
    ∃ bodies after outcome, Walk scope (.enter id) graph bodies after outcome ∧
      graph.linkObject scope id = ⟨graph.rollback after outcome, outcome, bodies⟩ := by
  rcases exists_visit_linkObject idle scope id with ⟨after, outcome, visit, equation⟩
  rcases visit.exists_walk with ⟨bodies, walk⟩
  refine ⟨bodies, after, outcome, walk, ?_⟩
  rw [equation, marksSince_eq walk.linked_eq, List.reverse_reverse]

theorem endsAs_rollback (graph after : Graph) (bodies : List ObjectId)
    (outcome : Except CompileError Unit) :
    (⟨graph.rollback after outcome, outcome, bodies⟩ : Linked Unit).EndsAs bodies after outcome :=
  ⟨rfl, rfl, objects_rollback graph after outcome, fun ended => by subst ended; rfl⟩

/-- Positions linked one by one are settled in one walk. -/
theorem exists_walk_linkPositions (idle : graph.pending = none) (scope : Scope) (id : ObjectId)
    (positions : List Nat) :
    ∃ bodies after outcome,
      Walk scope (.settle id (fun _ => none) positions) graph bodies after outcome ∧
        (graph.linkPositions scope id positions).EndsAs bodies after outcome := by
  induction positions generalizing graph with
  | nil => exact ⟨[], graph, _, .done, rfl, rfl, rfl, fun _ => rfl⟩
  | cons position others hypothesis =>
      rw [linkPositions, linkPosition_eq]
      cases leads : graph.leadsTo scope id position with
      | error error => exact ⟨[], graph, _, .stuck leads, rfl, rfl, rfl, by simp⟩
      | ok found =>
          cases found with
          | none =>
              rcases hypothesis idle with ⟨bodies, after, outcome, walk, ends⟩
              exact ⟨bodies, after, outcome, .skip leads walk, ends.after []⟩
          | some found =>
              obtain ⟨next, home⟩ := found
              rcases exists_walk_linkObject idle home next with
                ⟨first, between, entered, entry, equation⟩
              simp only [equation]
              cases entered with
              | error error =>
                  exact ⟨first, between, _, .fail leads entry, rfl, rfl, rfl, by simp⟩
              | ok done =>
                  have still : (between.setSlot id position (.object next)).pending = none :=
                    entry.visit.pending_eq.trans idle
                  rcases hypothesis still with ⟨second, after, outcome, walk, ends⟩
                  exact ⟨first ++ second, after, outcome, .follow leads entry walk,
                    ends.after first⟩

end Graph

namespace LinkCall

variable {graph after : Graph} {scope : Scope} {call : LinkCall} {bodies : List ObjectId}
  {outcome : Except CompileError Unit}

/-- A link call goes through a walk, records its bodies, and ends as it does. -/
theorem exists_walks (idle : graph.pending = none) (scope : Scope)
    (admitted : call.admitted graph = true) :
    ∃ bodies after outcome, call.Walks graph scope bodies after outcome ∧
      (call.perform graph scope).EndsAs bodies after outcome := by
  cases enters : call.root? scope with
  | some entered =>
      obtain ⟨root, home⟩ := entered
      rcases Graph.exists_walk_linkObject idle home root with
        ⟨bodies, after, outcome, walk, equation⟩
      refine ⟨bodies, after, outcome, .entered enters walk, ?_⟩
      rw [perform_of_root? admitted enters (fun _ => rfl : graph.SameShapes graph), equation]
      exact graph.endsAs_rollback after bodies outcome
  | none =>
      cases call with
      | fields id part =>
          cases object : graph.object? id with
          | none =>
              refine ⟨[], graph, _, .noGroup object, ?_⟩
              simp only [perform, Graph.linkFieldGroup, object]
              exact ⟨rfl, rfl, rfl, fun _ => rfl⟩
          | some spec =>
              rcases Graph.exists_walk_linkPositions idle scope id (spec.groupPositions part) with
                ⟨bodies, after, outcome, walk, ends⟩
              refine ⟨bodies, after, outcome, .group object walk, ?_⟩
              simpa only [perform, Graph.linkFieldGroup, object] using ends
      | _ =>
          rcases perform_of_root?_none (by trivial) enters with ⟨outcome, nothing⟩
          refine ⟨[], graph, outcome, .nothing trivial enters (nothing graph), ?_⟩
          rw [nothing]
          exact ⟨rfl, rfl, rfl, fun _ => rfl⟩

theorem Walks.nodup (walks : call.Walks graph scope bodies after outcome) :
    bodies.Nodup ∧ ∀ id ∈ bodies, id ∉ graph.linked := by
  cases walks with
  | entered _ walk => exact walk.nodup
  | nothing => exact ⟨List.nodup_nil, by simp⟩
  | group _ walk => exact walk.nodup
  | noGroup => exact ⟨List.nodup_nil, by simp⟩

theorem Walks.reached (walks : call.Walks graph scope bodies after outcome) :
    ∀ id ∈ bodies, id ∈ call.unlinkedReached graph scope := by
  intro id member
  have fresh := walks.nodup.2 id member
  cases walks with
  | @entered _ root home _ _ _ enters walk =>
      rcases (walk.finds (Graph.Held.refl graph)).2 id member with ⟨last, reaches⟩
      refine ⟨walk.present id member, fresh, (root, home), last, ?_, reaches⟩
      cases call with
      | fields id part => cases enters
      | _ => exact enters
  | nothing => cases member
  | group object walk =>
      rcases (walk.finds (Graph.Held.refl graph)).2 id member with
        ⟨position, positionMember, there, last, leads, reaches⟩
      exact ⟨walk.present id member, fresh, there, last,
        ⟨_, object, position, positionMember, leads⟩, reaches⟩
  | noGroup => cases member

/-- The bodies run are the marks made, latest last. -/
theorem Walks.linked_eq (walks : call.Walks graph scope bodies after outcome) :
    after.linked = bodies.reverse ++ graph.linked := by
  cases walks with
  | entered _ walk | group _ walk => exact walk.linked_eq
  | nothing | noGroup => rfl

theorem finite_unlinkedReached (graph : Graph) (scope : Scope) (call : LinkCall) :
    (call.unlinkedReached graph scope).Finite := by
  apply (Set.finite_lt_nat graph.objects.size).subset
  rintro id ⟨present, _⟩
  rcases Option.isSome_iff_exists.mp present with ⟨spec, object⟩
  exact (Array.getElem?_eq_some_iff.mp object).1

/-- A walk runs no more bodies than unlinked objects are reached. -/
theorem Walks.length_le (walks : call.Walks graph scope bodies after outcome) :
    bodies.length ≤ (call.unlinkedReached graph scope).ncard := by
  have within : (bodies.toFinset : Set ObjectId) ⊆ call.unlinkedReached graph scope := by
    intro id member
    exact walks.reached id (List.mem_toFinset.mp member)
  calc bodies.length
      = bodies.toFinset.card := (List.toFinset_card_of_nodup walks.nodup.1).symm
    _ = (bodies.toFinset : Set ObjectId).ncard := (Set.ncard_coe_finset _).symm
    _ ≤ (call.unlinkedReached graph scope).ncard :=
      Set.ncard_le_ncard within (finite_unlinkedReached graph scope call)

/-- What holds of the bodies that a link call ran, whether it failed or not. -/
structure RunsOnce (graph : Graph) (scope : Scope) (call : LinkCall)
    (bodies : List ObjectId) : Prop where
  nodup : bodies.Nodup
  unlinked : ∀ id ∈ bodies, id ∉ graph.linked
  reached : ∀ id ∈ bodies, id ∈ call.unlinkedReached graph scope
  bounded : bodies.length ≤ (call.unlinkedReached graph scope).ncard

theorem Walks.runsOnce (walks : call.Walks graph scope bodies after outcome) :
    call.RunsOnce graph scope bodies :=
  ⟨walks.nodup.1, walks.nodup.2, walks.reached, walks.length_le⟩

/-- Between two linkings every link call ends, in any graph and in any scope: it
goes through a finite walk that runs the bodies which the call records, with the
same result and the same objects.  It runs no body of an object twice, and none
of an object linked before, and it runs as many bodies at most as there are
unlinked objects reached from what is asked.  If it succeeds, the objects whose
bodies it ran are what it has marked. -/
theorem bodies_run_once (graph : Graph) (idle : graph.pending = none) (scope : Scope)
    (call : LinkCall) (admitted : call.admitted graph = true) :
    (∃ after outcome, call.Walks graph scope (call.perform graph scope).bodies after outcome ∧
        (call.perform graph scope).outcome = outcome ∧
          (call.perform graph scope).graph.objects = after.objects) ∧
      call.RunsOnce graph scope (call.perform graph scope).bodies ∧
      ((call.perform graph scope).outcome = .ok () →
        (call.perform graph scope).graph.linked =
          (call.perform graph scope).bodies.reverse ++ graph.linked) := by
  rcases exists_walks idle scope admitted with ⟨bodies, after, outcome, walks, ends⟩
  rw [ends.bodies, ends.outcome, ends.objects]
  have marked (ended : outcome = .ok ()) :
      (call.perform graph scope).graph.linked = bodies.reverse ++ graph.linked :=
    (ends.marks ended).trans walks.linked_eq
  exact ⟨⟨after, outcome, walks, rfl, rfl⟩, walks.runsOnce, marked⟩

end LinkCall

namespace Session

/-- Two structs that hold each other, one of them also itself, in one scope. -/
def mutualStructs : List Call :=
  [.compile (.struct ⟨.struct, "A",
      [{ name := "b", type := .named "B" (.ofInt 2), line := .ofInt 2 }], .ofInt 1⟩),
    .compile (.struct ⟨.struct, "B",
      [{ name := "a", type := .named "A" (.ofInt 4), line := .ofInt 4 },
        { name := "b", type := .named "B" (.ofInt 5), line := .ofInt 5 }], .ofInt 3⟩),
    .createScope [0, 1] [] []]

/-- Both bodies are run once, though each struct leads to both. -/
theorem bodies_mutualStructs :
    (run mutualStructs).graph.pending = none ∧
      (LinkCall.type (.object 0)).admitted (run mutualStructs).graph = true ∧
      ((LinkCall.type (.object 0)).perform (run mutualStructs).graph
        ⟨1, [("A", 0), ("B", 1)], [], []⟩).bodies = [0, 1] ∧
      (LinkCall.type (.object 0)).RunsOnce (run mutualStructs).graph
        ⟨1, [("A", 0), ("B", 1)], [], []⟩ [0, 1] := by
  have idle : (run mutualStructs).graph.pending = none := rfl
  have admitted : (LinkCall.type (.object 0)).admitted (run mutualStructs).graph = true := by
    decide
  have recorded : ((LinkCall.type (.object 0)).perform (run mutualStructs).graph
      ⟨1, [("A", 0), ("B", 1)], [], []⟩).bodies = [0, 1] := by
    decide
  have once := (LinkCall.bodies_run_once (run mutualStructs).graph idle
    ⟨1, [("A", 0), ("B", 1)], [], []⟩ (.type (.object 0)) admitted).2.1
  rw [recorded] at once
  exact ⟨idle, admitted, recorded, once⟩

/-- The record is kept where a call fails: the second field has no type, and by
then the body of the struct and that of its first field have been run. -/
example : failingLink.outcome.isOk = false ∧ failingLink.bodies = [0, 1] ∧
    failingLink.graph.linked = [] := by
  decide

end Session

end IdlLinker
