import IdlLinker.Proofs.Progress
import IdlLinker.Proofs.Retrace
import IdlLinker.Proofs.Session

/-!
# Failed calls and their repetition

A failed call leaves the marks it found and can be repeated with the same
error.  The fields of a group are linked one by one, so there the marks are
those of the fields before the one that failed; and that field may by then hold
an object that the owner of the group was given in another scope, in which case
a repetition is another question.
-/

namespace IdlLinker

namespace Spec

/-- A type asks for types only. -/
theorem roleAt_of_role?_type {spec : Spec Slot} (role : spec.role? = some .type) (position : Nat) :
    spec.roleAt position = .type := by
  cases spec with
  | service name parent functions => cases role
  | _ => rfl

end Spec

/-- A type leads to types only. -/
theorem Ready.fits_type {family : Scope → Prop} {scope home : Scope} {graph : Graph}
    {id next : ObjectId} {position : Nat} (ready : Ready family scope graph)
    (asked : graph.fits .type (.object id) = true)
    (leads : graph.leadsTo scope id position = .ok (some (next, home))) :
    graph.fits .type (.object next) = true := by
  rcases Option.isSome_iff_exists.mp (Graph.isSome_of_fits asked) with ⟨spec, object⟩
  have role : spec.role? = some .type := by simpa [Graph.fits, object] using asked
  have fits := ready.fits object leads
  rwa [Spec.roleAt_of_role?_type role] at fits

namespace Visit

variable {scope : Scope} {task : Task} {before after : Graph}
  {outcome : Except CompileError Unit}

/-- A visit of a type leaves all objects alone that are no types. -/
theorem object?_eq_of_role (visit : Visit scope task before after outcome) {family : Scope → Prop}
    (ready : Ready family scope before)
    (asked : before.fits .type (.object task.subject) = true) {other : ObjectId}
    (apart : before.fits .type (.object other) = false) :
    after.object? other = before.object? other := by
  induction visit with
  | rest marked => rfl
  | body unmarked object _ settled => exact settled (ready.mark _) asked apart
  | done => rfl
  | skip nowhere _ settled => exact settled ready asked apart
  | @follow scope home id next owner graph between after position others outcome leads
      entry _ entered settled =>
      have onward := ready.onward leads
      have resumed := ready.resume leads entry.sameShapes (entry.wellTyped onward)
      have same : graph.SameShapes (between.setSlot id position (.object next)) := by
        intro target
        rw [Graph.shape_setSlot, entry.shape_eq]
      have different : other ≠ id := by
        rintro rfl
        exact absurd asked (Bool.eq_false_iff.mp apart)
      rw [settled resumed (by rwa [same.fits_eq]) (by rwa [same.fits_eq]),
        between.object?_setSlot_of_ne different]
      exact entered onward (ready.fits_type asked leads) apart
  | stuck unresolved => rfl
  | fail leads _ entered => exact entered (ready.onward leads) (ready.fits_type asked leads) apart

end Visit

namespace Graph

variable {family : Scope → Prop} {scope : Scope} {graph : Graph} {id : ObjectId}
  {positions : List Nat} {error : CompileError}

theorem linkPositions_append {first rest : List Nat}
    (ended : (graph.linkPositions scope id first).outcome = .ok ()) :
    graph.linkPositions scope id (first ++ rest) =
      ((graph.linkPositions scope id first).graph.linkPositions scope id rest).after
        (graph.linkPositions scope id first).bodies := by
  induction first generalizing graph with
  | nil => rfl
  | cons position others hypothesis =>
      simp only [List.cons_append, linkPositions] at ended ⊢
      cases linked : (graph.linkPosition scope id position).outcome with
      | error error => simp [linked] at ended
      | ok done =>
          simp only [linked, Linked.outcome_after] at ended ⊢
          rw [hypothesis ended]
          simp [Linked.after]

theorem linkPositions_cons_error {position : Nat} {rest : List Nat}
    (failed : (graph.linkPosition scope id position).outcome = .error error) :
    graph.linkPositions scope id (position :: rest) = graph.linkPosition scope id position := by
  simp only [linkPositions, failed]
  rw [← failed]

/-- Linking positions stops at this one: those before it are linked and this
one fails. -/
structure FailsAt (graph : Graph) (scope : Scope) (id : ObjectId) (positions : List Nat)
    (error : CompileError) (done : List Nat) (position : Nat) : Prop where
  split : ∃ rest, positions = done ++ position :: rest
  ended : (graph.linkPositions scope id done).outcome = .ok ()
  failed : ((graph.linkPositions scope id done).graph.linkPosition scope id position).outcome =
    .error error

theorem exists_failsAt (failed : (graph.linkPositions scope id positions).outcome = .error error) :
    ∃ done position, graph.FailsAt scope id positions error done position := by
  induction positions generalizing graph with
  | nil => cases failed
  | cons position others hypothesis =>
      cases linked : (graph.linkPosition scope id position).outcome with
      | error first =>
          rw [linkPositions_cons_error linked, linked] at failed
          cases failed
          exact ⟨[], position, ⟨others, rfl⟩, rfl, linked⟩
      | ok done =>
          simp only [linkPositions, linked, Linked.outcome_after] at failed
          rcases hypothesis failed with ⟨before, failing, ⟨rest, rfl⟩, ended, stopped⟩
          refine ⟨position :: before, failing, ⟨rest, rfl⟩, ?_, ?_⟩
          · simpa only [linkPositions, linked, Linked.outcome_after] using ended
          · simpa only [linkPositions, linked, Linked.graph_after] using stopped

/-- Where linking positions fails, it leaves what that position leaves, after
the bodies of the positions before it. -/
theorem FailsAt.linkPositions_eq {done : List Nat} {position : Nat}
    (fails : graph.FailsAt scope id positions error done position) :
    graph.linkPositions scope id positions =
      ((graph.linkPositions scope id done).graph.linkPosition scope id position).after
        (graph.linkPositions scope id done).bodies := by
  rcases fails.split with ⟨rest, rfl⟩
  rw [linkPositions_append fails.ended, linkPositions_cons_error fails.failed]

/-- A position that fails leaves the marks, and fails again if it still leads
where it led. -/
theorem linkPosition_retry {position : Nat} (idle : graph.pending = none)
    (failed : (graph.linkPosition scope id position).outcome = .error error) :
    (graph.linkPosition scope id position).graph.linked = graph.linked ∧
      ((graph.linkPosition scope id position).graph.leadsTo scope id position =
          graph.leadsTo scope id position →
        (graph.linkPosition scope id position).graph.linkPosition scope id position =
          graph.linkPosition scope id position) := by
  have equation := linkPosition_eq graph scope id position
  cases leads : graph.leadsTo scope id position with
  | error stuck =>
      simp only [leads] at equation
      rw [equation]
      exact ⟨rfl, fun _ => equation⟩
  | ok found =>
      cases found with
      | none =>
          simp only [leads] at equation
          rw [equation] at failed
          cases failed
      | some found =>
          obtain ⟨next, home⟩ := found
          simp only [leads] at equation
          cases ended : (graph.linkObject home next).outcome with
          | ok done =>
              simp only [ended] at equation
              rw [equation] at failed
              cases failed
          | error inner =>
              simp only [ended] at equation
              rcases linkObject_retry idle ended with ⟨marks, again⟩
              rw [equation]
              refine ⟨marks, ?_⟩
              intro same
              rw [linkPosition_eq, same]
              simp only [again, ended]

/-- Positions linked one by one: a failure leaves the marks of those before the
failing one, and is repeated if that one still leads where it led.  The bodies
of those before it are not run again. -/
theorem Sound.linkPositions_retry (sound : graph.Sound family) (member : family scope)
    {done : List Nat} {position : Nat}
    (fails : graph.FailsAt scope id positions error done position) :
    (graph.linkPositions scope id positions).graph.linked =
        (graph.linkPositions scope id done).graph.linked ∧
      ((graph.linkPositions scope id positions).graph.leadsTo scope id position =
          (graph.linkPositions scope id done).graph.leadsTo scope id position →
        ((graph.linkPositions scope id positions).graph.linkPositions scope id positions).Agrees
          (graph.linkPositions scope id positions)) := by
  have settled := sound.settledAt_linkPositions member fails.ended
  have idle := (sound.linkPositions member id done).idle
  rcases linkPosition_retry idle fails.failed with ⟨marks, again⟩
  rw [fails.linkPositions_eq, Linked.graph_after]
  refine ⟨marks, ?_⟩
  intro same
  have step := progress_linkPosition idle scope id position
  have nothing := linkPositions_of_settledAt
    (fun other otherMember => step.settledAt (settled other otherMember)) scope
  rcases fails.split with ⟨rest, rfl⟩
  rw [linkPositions_append (by rw [nothing]), nothing, Linked.after_nil,
    linkPositions_cons_error (by rw [again same, fails.failed]), again same]
  exact Linked.Agrees.after _ _

/-- What holds types only and is no type itself is not replaced while one of its
positions fails. -/
theorem Sound.leadsTo_linkPosition (sound : graph.Sound family) (member : family scope)
    {spec : Spec Slot} (object : graph.object? id = some spec)
    (asks : ∀ position, spec.roleAt position = .type) (apart : spec.role? ≠ some .type)
    {position : Nat} (failed : (graph.linkPosition scope id position).outcome = .error error) :
    (graph.linkPosition scope id position).graph.leadsTo scope id position =
      graph.leadsTo scope id position := by
  have equation := linkPosition_eq graph scope id position
  cases leads : graph.leadsTo scope id position with
  | error stuck =>
      simp only [leads] at equation
      rw [equation, leads]
  | ok found =>
      cases found with
      | none =>
          simp only [leads] at equation
          rw [equation, leads]
      | some found =>
          obtain ⟨next, home⟩ := found
          have ready := sound.ready member
          have asked := ready.fits object leads
          rw [asks position] at asked
          have absent : graph.fits .type (.object id) = false := by
            simpa [Graph.fits, object] using apart
          rcases exists_visit_linkObject sound.idle home next with
            ⟨visited, outcome, visit, linked⟩
          simp only [leads, linked] at equation
          cases outcome with
          | ok done =>
              rw [equation] at failed
              cases failed
          | error inner =>
              have same := visit.object?_eq_of_role (ready.onward leads) asked absent
              rw [equation, ← leads]
              exact leadsTo_eq_of_slot? (slot?_eq_of_object? same position) scope

theorem linkSlot_retry {slot : Slot} (idle : graph.pending = none)
    (failed : (graph.linkSlot scope slot).outcome = .error error) :
    (graph.linkSlot scope slot).graph.linked = graph.linked ∧
      (graph.linkSlot scope slot).graph.linkSlot scope slot = graph.linkSlot scope slot := by
  rw [linkSlot_eq] at failed ⊢
  cases leads : target scope slot with
  | error stuck => exact ⟨rfl, by simp only [linkSlot_eq, leads]⟩
  | ok found =>
      cases found with
      | none =>
          simp only [leads] at failed
          cases failed
      | some found =>
          obtain ⟨next, home⟩ := found
          simp only [leads] at failed ⊢
          cases ended : (graph.linkObject home next).outcome with
          | ok done =>
              rw [ended] at failed
              cases failed
          | error inner =>
              rcases linkObject_retry idle ended with ⟨marks, again⟩
              refine ⟨marks, ?_⟩
              simp only [linkSlot_eq, leads]
              rw [again, ended]

end Graph

end IdlLinker
