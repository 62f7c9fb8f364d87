import Mathlib.Data.Finset.Card
import Mathlib.Data.Finset.Range
import IdlLinker.Proofs.Visit

/-!
# The linker follows its visit

The linker keeps a depth, a list of pending marks, and takes marks back where a
body fails.  A depth above the number of objects that are not linked is never
used up, and the outermost body takes back exactly the marks of its visit.  So
between two linkings the linker does what the visit does, and a failure leaves
the marks as they were.  The bodies that the linker records are the marks that
the visit makes, also where it fails.
-/

namespace IdlLinker

namespace Graph

/-- The objects that a visit can still enter. -/
def unlinked (graph : Graph) : Finset ObjectId :=
  (Finset.range graph.objects.size).filter fun id => id ∉ graph.linked

theorem unlinked_markPending_lt {graph : Graph} {id : ObjectId} {spec : Spec Slot}
    (object : graph.object? id = some spec) (unmarked : id ∉ graph.linked) :
    (graph.markPending id).unlinked.card < graph.unlinked.card := by
  apply Finset.card_lt_card
  rw [Finset.ssubset_iff_of_subset]
  · refine ⟨id, ?_, ?_⟩
    · have bound : id < graph.objects.size := (Array.getElem?_eq_some_iff.mp object).1
      simpa [unlinked] using ⟨bound, unmarked⟩
    · simp [unlinked, markPending, mark]
  · intro other member
    simp only [unlinked, markPending, mark, Finset.mem_filter, Finset.mem_range,
      List.mem_cons, not_or] at member ⊢
    exact ⟨member.1, member.2.2⟩

theorem unlinked_card_le {before after : Graph}
    (size : after.objects.size = before.objects.size)
    (marks : before.linked ⊆ after.linked) :
    after.unlinked.card ≤ before.unlinked.card := by
  apply Finset.card_le_card
  intro other member
  simp only [unlinked, Finset.mem_filter, Finset.mem_range] at member ⊢
  exact ⟨size ▸ member.1, fun old => member.2 (marks old)⟩

theorem unlinked_card_lt_linkDepth (graph : Graph) :
    graph.unlinked.card < graph.linkDepth := by
  have bound : graph.unlinked.card ≤ (Finset.range graph.objects.size).card :=
    Finset.card_le_card (Finset.filter_subset _ _)
  rw [Finset.card_range] at bound
  exact Nat.lt_succ_of_le bound

/-- What entering an object leaves of a visit with these new marks. -/
def conclude (before visited : Graph) (fresh : List ObjectId) :
    Except CompileError Unit → Graph
  | .ok _ => { visited with pending := before.pending.map (fresh ++ ·) }
  | .error _ =>
      { visited with
        linked := before.linked.filter fun id => id ∉ before.pending.getD []
        pending := before.pending.map (fresh ++ ·) }

/-- Entering an object to this depth follows its visit. -/
def EnterFollows (depth : Nat) : Prop :=
  ∀ scope id graph, graph.unlinked.card < depth →
    ∃ visited outcome fresh, Visit scope (.enter id) graph visited outcome ∧
      visited.linked = fresh ++ graph.linked ∧
        enter depth scope id graph =
          ⟨graph.conclude visited fresh outcome, outcome, fresh.reverse⟩

/-- What settling positions leaves of a visit, inside a body: every new mark is
pending, and taking back what is pending gives the old marks. -/
structure Follows (before visited left : Graph) (pending fresh : List ObjectId)
    (outcome : Except CompileError Unit) : Prop where
  marks : visited.linked = fresh ++ before.linked
  objects : left.objects = visited.objects
  stacked : left.pending = some (fresh ++ pending)
  kept : outcome = .ok () → left.linked = visited.linked
  undone : ∀ error, outcome = .error error →
    left.unmarkPending.linked = before.linked.filter fun id => id ∉ pending

theorem filter_fresh_append {fresh old pending : List ObjectId}
    (new : ∀ id ∈ fresh, id ∉ old) :
    old.filter (fun id => id ∉ fresh ++ pending) = old.filter fun id => id ∉ pending := by
  apply List.filter_congr
  intro id member
  have absent : id ∉ fresh := fun there => new id there member
  simp [absent]

namespace Follows

variable {before between visited left : Graph} {pending first second : List ObjectId}
  {outcome : Except CompileError Unit}

/-- A visit that changes nothing, whether it is done or stuck. -/
theorem refl (graph : Graph) (busy : graph.pending = some pending)
    (outcome : Except CompileError Unit) : Follows graph graph graph pending [] outcome :=
  ⟨rfl, rfl, busy, fun _ => rfl, fun _ _ => by simp [unmarkPending, busy]⟩

/-- Where entering an object failed, its marks are still pending. -/
theorem fail (busy : before.pending = some pending)
    (marks : between.linked = first ++ before.linked) (new : ∀ id ∈ first, id ∉ before.linked)
    (inner outer : CompileError) :
    Follows before between (before.conclude between first (.error inner)) pending first
      (.error outer) := by
  refine ⟨marks, rfl, by simp [conclude, busy], by simp, ?_⟩
  intro _ _
  simp only [unmarkPending, conclude, busy, Option.map_some, Option.getD_some, List.filter_filter]
  rw [← filter_fresh_append new]
  apply List.filter_congr
  intro other _
  simp +contextual

/-- After an object was entered, the walk goes on with the marks of that pending as
well.  What is pending of the visit itself does not matter. -/
theorem onward {resumed : Graph} {idle : Option (List ObjectId)}
    (linked : resumed.linked = first ++ before.linked)
    (new : ∀ id ∈ first, id ∉ before.linked)
    (rest : Follows resumed visited left (first ++ pending) second outcome) :
    Follows before { visited with pending := idle } left pending (second ++ first) outcome := by
  refine ⟨?_, rest.objects, ?_, rest.kept, ?_⟩
  · simpa [linked] using rest.marks
  · simpa using rest.stacked
  · intro error ended
    rw [rest.undone error ended, linked, List.filter_append, filter_fresh_append new]
    simp +contextual

end Follows

theorem settlePositions_follows {depth : Nat} (follows : EnterFollows depth) (scope : Scope)
    (id : ObjectId) (owner : Nat → Option String) (positions : List Nat) (graph : Graph)
    (pending : List ObjectId) (busy : graph.pending = some pending)
    (enough : graph.unlinked.card < depth) :
    ∃ visited outcome fresh left, Visit scope (.settle id owner positions) graph visited outcome ∧
      settlePositions (enter depth) scope id owner positions graph =
          ⟨left, outcome, fresh.reverse⟩ ∧
        Follows graph visited left pending fresh outcome := by
  induction positions generalizing graph pending with
  | nil => exact ⟨graph, .ok (), [], graph, .done, rfl, .refl graph busy _⟩
  | cons position others hypothesis =>
      rw [settlePositions, settlePosition_eq]
      cases leads : graph.leadsTo scope id position with
      | error error => exact ⟨graph, _, [], graph, .stuck leads, rfl, .refl graph busy _⟩
      | ok found =>
          cases found with
          | none =>
              obtain ⟨visited, outcome, fresh, left, visit, equation, rest⟩ :=
                hypothesis graph pending busy enough
              refine ⟨visited, outcome, fresh, left, .skip leads visit, ?_, rest⟩
              simp [equation]
          | some found =>
              rcases found with ⟨next, home⟩
              obtain ⟨between, outcome, first, entered, firstMarks, equation⟩ :=
                follows home next graph enough
              rcases entered.exists_fresh with ⟨_, marks, _, firstNew⟩
              cases List.append_cancel_right (firstMarks.symm.trans marks)
              simp only [equation]
              cases outcome with
              | error error =>
                  exact ⟨between, _, first, _, .fail leads entered, rfl,
                    .fail busy firstMarks firstNew error _⟩
              | ok done =>
                  have resumed : graph.conclude between first (.ok done) =
                      { between with pending := some (first ++ pending) } := by
                    simp [conclude, busy]
                  have still : (Graph.setSlot { between with pending := some (first ++ pending) }
                      id position (.object next)).unlinked.card < depth := by
                    apply Nat.lt_of_le_of_lt _ enough
                    apply unlinked_card_le
                    · rw [Graph.setSlot, Array.size_modify, entered.size_eq]
                    · exact entered.linked_subset
                  obtain ⟨visited, outcome, second, left, visit, equation, rest⟩ :=
                    hypothesis _ (first ++ pending) rfl still
                  have settled := visit.withPending between.pending
                  refine ⟨_, outcome, second ++ first, left, .follow leads entered settled, ?_,
                    .onward (by rw [linked_setSlot, firstMarks]) firstNew rest⟩
                  rw [resumed]
                  simp [equation, Linked.after]

theorem enterFollows (depth : Nat) : EnterFollows depth := by
  induction depth with
  | zero =>
      intro scope id graph enough
      exact absurd enough (Nat.not_lt_zero _)
  | succ depth hypothesis =>
      intro scope id graph enough
      cases object : graph.object? id with
      | none =>
          refine ⟨graph, .ok (), [], .rest (Or.inr object), rfl, ?_⟩
          simp [enter, object, conclude]
      | some spec =>
          by_cases marked : id ∈ graph.linked
          · refine ⟨graph, .ok (), [], .rest (Or.inl marked), rfl, ?_⟩
            simp [enter, object, linkOnce, marked, conclude]
          · have smaller : (graph.markPending id).unlinked.card < depth :=
              Nat.lt_of_lt_of_le (unlinked_markPending_lt object marked)
                (Nat.le_of_lt_succ enough)
            obtain ⟨visited, outcome, fresh, left, visit, equation, follows⟩ :=
              settlePositions_follows hypothesis scope id spec.ownerAt
                (List.range spec.slots.length) (graph.markPending id)
                (id :: graph.pending.getD []) rfl smaller
            have settled := visit.withPending graph.pending
            refine ⟨_, outcome, fresh ++ [id], .body marked object settled, ?_, ?_⟩
            · simpa [markPending] using follows.marks
            · have ran : enter (depth + 1) scope id graph = graph.linkOnce id
                  (settlePositions (enter depth) scope id spec.ownerAt
                    (List.range spec.slots.length)) := by
                rw [enter, object]
              rw [ran, linkOnce, if_neg marked, equation]
              have stacked := follows.stacked
              have objects := follows.objects
              cases outcome with
              | ok done =>
                  have kept := follows.kept rfl
                  cases waiting : graph.pending <;> simp_all [conclude]
              | error error =>
                  have undone : left.unmarkPending.linked =
                      graph.linked.filter fun other => other ∉ graph.pending.getD [] := by
                    rw [follows.undone error rfl]
                    simp only [markPending, mark, List.filter_cons, List.mem_cons, true_or,
                      not_true_eq_false, decide_false]
                    apply List.filter_congr
                    intro other member
                    have different : other ≠ id := fun same => marked (same ▸ member)
                    simp [different]
                  cases waiting : graph.pending <;> simp_all [conclude, unmarkPending]

/-- The objects marked between two graphs, in order. -/
def marksSince (before after : Graph) : List ObjectId :=
  (after.linked.take (after.linked.length - before.linked.length)).reverse

theorem marksSince_eq {before after : Graph} {fresh : List ObjectId}
    (marks : after.linked = fresh ++ before.linked) : before.marksSince after = fresh.reverse := by
  simp [marksSince, marks]

/-- What a linking leaves of its visit: everything, or after a failure all but
the marks. -/
def rollback (before visited : Graph) : Except CompileError Unit → Graph
  | .ok _ => visited
  | .error _ => { visited with linked := before.linked }

/-- Between two linkings, linking an object does what its visit does, runs a
body for each mark of the visit, and takes the marks back after a failure. -/
theorem exists_visit_linkObject {graph : Graph} (idle : graph.pending = none) (scope : Scope)
    (id : ObjectId) :
    ∃ visited outcome, Visit scope (.enter id) graph visited outcome ∧
      graph.linkObject scope id =
        ⟨graph.rollback visited outcome, outcome, graph.marksSince visited⟩ := by
  obtain ⟨visited, outcome, fresh, visit, marks, equation⟩ :=
    enterFollows graph.linkDepth scope id graph graph.unlinked_card_lt_linkDepth
  refine ⟨visited, outcome, visit, ?_⟩
  have still : visited.pending = none := visit.pending_eq.trans idle
  have same : { visited with pending := none } = visited := by
    rw [← still]
  rw [linkObject, equation, marksSince_eq marks]
  cases outcome with
  | ok done => simp [conclude, rollback, idle, same]
  | error error => simp [conclude, rollback, idle, still]

theorem linkObject_of_visit {graph visited : Graph} {scope : Scope} {id : ObjectId}
    {outcome : Except CompileError Unit} (idle : graph.pending = none)
    (visit : Visit scope (.enter id) graph visited outcome) :
    graph.linkObject scope id =
      ⟨graph.rollback visited outcome, outcome, graph.marksSince visited⟩ := by
  rcases exists_visit_linkObject idle scope id with ⟨other, ended, otherVisit, equation⟩
  rcases otherVisit.unique visit with ⟨rfl, rfl⟩
  exact equation

theorem linkPosition_eq (graph : Graph) (scope : Scope) (id : ObjectId) (position : Nat) :
    graph.linkPosition scope id position =
      match graph.leadsTo scope id position with
      | .error error => ⟨graph, .error error, []⟩
      | .ok none => ⟨graph, .ok (), []⟩
      | .ok (some (next, home)) =>
        let linked := graph.linkObject home next
        match linked.outcome with
        | .ok _ => ⟨linked.graph.setSlot id position (.object next), .ok (), linked.bodies⟩
        | .error error => ⟨linked.graph, .error error, linked.bodies⟩ :=
  settlePosition_eq (enter graph.linkDepth) scope id none position graph

theorem linkSlot_eq (graph : Graph) (scope : Scope) (slot : Slot) :
    graph.linkSlot scope slot =
      match target scope slot with
      | .error error => ⟨graph, .error error, []⟩
      | .ok none => ⟨graph, .ok slot, []⟩
      | .ok (some (next, home)) =>
        let linked := graph.linkObject home next
        ⟨linked.graph, linked.outcome.map fun _ => .object next, linked.bodies⟩ := rfl

@[simp]
theorem objects_rollback (before visited : Graph) (outcome : Except CompileError Unit) :
    (before.rollback visited outcome).objects = visited.objects := by
  cases outcome <;> rfl

@[simp]
theorem pending_rollback (before visited : Graph) (outcome : Except CompileError Unit) :
    (before.rollback visited outcome).pending = visited.pending := by
  cases outcome <;> rfl

end Graph

end IdlLinker
