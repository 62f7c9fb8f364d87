import IdlLinker.Proofs.Retry

/-!
# Failed link calls are undone and repeatable

A failed call on a type, a service or a function leaves the marks it found, and
the same call on what it leaves fails with the same error and changes nothing.
For the fields of a group the marks are those of the fields before the failing
one.  There the repetition is the same call again unless the failing field came
to lead elsewhere, which happens only in a struct whose own fields were linked
in another scope on the way.
-/

namespace IdlLinker

namespace Spec

variable {ρ σ : Type}

@[simp]
theorem groupPositions_shape (spec : Spec ρ) : spec.shape.groupPositions = spec.groupPositions := by
  funext part
  cases spec with
  | struct name kind fields => cases part <;> simp [shape, mapSlots, groupPositions]
  | fieldGroup fields => cases part <;> simp [shape, mapSlots, groupPositions]
  | function body =>
      obtain ⟨name, args, result, oneway⟩ := body
      cases result with
      | none => cases part <;> simp [shape, mapSlots, FunctionSpec.mapSlots, groupPositions]
      | some result =>
          obtain ⟨returnType, exceptions⟩ := result
          cases part <;> cases returnType <;>
            simp [shape, mapSlots, FunctionSpec.mapSlots, groupPositions]
  | _ => cases part <;> rfl

theorem groupPositions_eq_of_shape {left : Spec ρ} {right : Spec σ}
    (same : left.shape = right.shape) : left.groupPositions = right.groupPositions := by
  rw [← groupPositions_shape left, same, groupPositions_shape]

/-- Only structs, functions and field groups have field groups. -/
theorem roleAt_of_groupPositions {spec : Spec ρ} {part : GroupPart} {position : Nat}
    (member : position ∈ spec.groupPositions part) (index : Nat) : spec.roleAt index = .type := by
  cases spec with
  | service name parent functions => cases part <;> cases member
  | _ => rfl

end Spec

namespace Graph

variable {family : Scope → Prop} {scope : Scope} {graph : Graph} {id : ObjectId}
  {error : CompileError}

theorem FailsAt.mem {positions done : List Nat} {position : Nat}
    (fails : graph.FailsAt scope id positions error done position) : position ∈ positions := by
  rcases fails.split with ⟨rest, rfl⟩
  simp

/-- A failed linking of a field group: which field fails, which marks are left,
and when the repetition is the same. -/
def GroupUndone (graph : Graph) (scope : Scope) (id : ObjectId) (part : GroupPart)
    (error : CompileError) : Prop :=
  ∃ spec done position, graph.object? id = some spec ∧
    graph.FailsAt scope id (spec.groupPositions part) error done position ∧
    (graph.linkFieldGroup scope id part).graph.linked =
      (graph.linkPositions scope id done).graph.linked ∧
    (spec.role? ≠ some .type ∨
        (graph.linkFieldGroup scope id part).graph.leadsTo scope id position =
          graph.leadsTo scope id position →
      ((graph.linkFieldGroup scope id part).graph.linkFieldGroup scope id part).Agrees
        (graph.linkFieldGroup scope id part))

theorem Sound.groupUndone (sound : graph.Sound family) (member : family scope)
    {part : GroupPart} (failed : (graph.linkFieldGroup scope id part).outcome = .error error) :
    graph.GroupUndone scope id part error := by
  cases object : graph.object? id with
  | none =>
      simp only [Graph.linkFieldGroup, object] at failed
      cases failed
  | some spec =>
      have linkEq : graph.linkFieldGroup scope id part =
          graph.linkPositions scope id (spec.groupPositions part) := by
        simp only [Graph.linkFieldGroup, object]
      rw [linkEq] at failed
      rcases exists_failsAt failed with ⟨done, position, fails⟩
      rcases sound.linkPositions_retry member fails with ⟨marks, again⟩
      refine ⟨spec, done, position, object, fails, by rw [linkEq, marks], ?_⟩
      rw [linkEq]
      have relinked := relinked_linkPositions sound.idle scope id (spec.groupPositions part)
      rcases relinked.shapes.exists_object object with ⟨changed, found, shape⟩
      have linkAgain :
          (graph.linkPositions scope id (spec.groupPositions part)).graph.linkFieldGroup
            scope id part =
          (graph.linkPositions scope id (spec.groupPositions part)).graph.linkPositions
            scope id (spec.groupPositions part) := by
        simp only [Graph.linkFieldGroup, found, Spec.groupPositions_eq_of_shape shape]
      rw [linkAgain]
      have between := sound.linkPositions member id done
      intro settled
      apply again
      have earlier := relinked_linkPositions sound.idle scope id done
      rcases settled with apart | same
      · rcases earlier.shapes.exists_object object with ⟨middle, middleObject, middleShape⟩
        rw [fails.linkPositions_eq, Linked.graph_after]
        apply between.leadsTo_linkPosition member middleObject _ _ fails.failed
        · rw [Spec.roleAt_eq_of_shape middleShape]
          exact Spec.roleAt_of_groupPositions fails.mem
        · rwa [Spec.role?_eq_of_shape middleShape]
      · have second := progress_linkPosition between.idle scope id position
        rw [fails.linkPositions_eq, Linked.graph_after] at same ⊢
        exact earlier.leadsTo_eq second same

end Graph

namespace LinkCall

open IdlLinker.Graph

/-- What a failed call leaves: the marks from before it, and a graph on which
the same call has the same outcome and changes nothing.  It runs the same bodies
too, except that the fields of a group before the failing one are not linked
again. -/
def Undone (graph : Graph) (scope : Scope) (error : CompileError) : LinkCall → Prop
  | fields id part => graph.GroupUndone scope id part error
  | call =>
    (call.perform graph scope).graph.linked = graph.linked ∧
      call.perform (call.perform graph scope).graph scope = call.perform graph scope

variable {family : Scope → Prop} {scope : Scope} {graph : Graph} {error : CompileError}

theorem done_retry {slot : Slot} (idle : graph.pending = none)
    (failed : ((graph.linkSlot scope slot).done).outcome = .error error) :
    (graph.linkSlot scope slot).done.graph.linked = graph.linked ∧
      ((graph.linkSlot scope slot).done.graph.linkSlot scope slot).done =
        (graph.linkSlot scope slot).done := by
  have inner : (graph.linkSlot scope slot).outcome = .error error := by
    cases ended : (graph.linkSlot scope slot).outcome with
    | ok slot =>
        simp only [Linked.done, ended] at failed
        cases failed
    | error other =>
        simp only [Linked.done, ended] at failed
        cases failed
        rfl
  rcases linkSlot_retry idle inner with ⟨marks, again⟩
  exact ⟨marks, congrArg Linked.done again⟩

theorem undone_of_failed (sound : graph.Sound family) (member : family scope) (call : LinkCall)
    (failed : (call.perform graph scope).outcome = .error error) :
    call.Undone graph scope error := by
  cases call with
  | fields id part => exact sound.groupUndone member failed
  | service id => exact linkObject_retry sound.idle failed
  | function id => exact linkObject_retry sound.idle failed
  | type slot => exact done_retry sound.idle failed
  | spec slot =>
      rcases graph.linkSpec_cases scope slot with nothing | same
      · simp only [perform, nothing] at failed
        cases failed
      · have first := same graph fun _ => rfl
        have second := same _ (relinked_linkSlot sound.idle scope slot).shapes
        simp only [perform, first] at failed
        simp only [Undone, perform, first]
        have retried := done_retry sound.idle failed
        exact ⟨retried.1, (congrArg Linked.done second).trans retried.2⟩

end LinkCall

/-- Whatever was called before, and in whichever scope, a link call that fails
is undone on the marks and can be repeated. -/
theorem Session.failed_link_undone (calls : List Call) (scope : Scope)
    (member : scope ∈ (run calls).scopes) (call : LinkCall) (error : CompileError)
    (failed : (call.perform (run calls).graph scope).outcome = .error error) :
    call.Undone (run calls).graph scope error :=
  LinkCall.undone_of_failed (sound_run calls) member call failed

/-- Two structs of one name, each in its own scope; the second one names the
first, and a struct that only the last scope knows. -/
def Session.sameNames : List Call :=
  [.compile (.struct ⟨.struct, "Node", [], .ofInt 1⟩),
    .compile (.struct ⟨.struct, "Missing", [], .ofInt 2⟩),
    .compile (.struct ⟨.struct, "Node",
      [{ name := "next", type := .named "inc.Node" (.ofInt 4), line := .ofInt 4 },
        { name := "bad", type := .named "Missing" (.ofInt 5), line := .ofInt 5 }], .ofInt 3⟩),
    .createScope [0] [] [], .createScope [2] [] [("inc", 1)], .createScope [1] [] [("inc", 2)]]

/-- The error of the struct that names a missing one. -/
def Session.missingError : CompileError :=
  .wrapped .link "Node" (.unresolvedReference "Missing" (.ofInt 5))

/-- Linking the fields of the second struct in the last scope fails, and then
succeeds: the first field led to the struct itself, which was linked in its own
scope up to its second field, and by then the first field held another
struct. -/
theorem Session.field_group_retry_succeeds :
    ((run sameNames).scopes[3]?.map fun scope =>
      let first := (LinkCall.fields 2 .fields).perform (run sameNames).graph scope
      (first.outcome, ((LinkCall.fields 2 .fields).perform first.graph scope).outcome)) =
        some (.error missingError, .ok ()) := by
  decide

theorem Session.failed_link_undone_sameNames :
    ((LinkCall.type (.object 2)).perform (run sameNames).graph
        ((run sameNames).scopes.get ⟨2, by decide⟩)).outcome = .error missingError ∧
      (LinkCall.type (.object 2)).Undone (run sameNames).graph
        ((run sameNames).scopes.get ⟨2, by decide⟩) missingError :=
  have failed : ((LinkCall.type (.object 2)).perform (run sameNames).graph
      ((run sameNames).scopes.get ⟨2, by decide⟩)).outcome = .error missingError := by
    decide
  ⟨failed, failed_link_undone sameNames _ (List.get_mem _ _) _ _ failed⟩

end IdlLinker
