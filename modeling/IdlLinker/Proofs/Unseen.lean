import IdlLinker.Proofs.Alike
import IdlLinker.Proofs.FailedCalls

/-!
# What a failed call leaves for later ones

A failed call takes back its marks, but not the objects that it put in the
places of references.  A later call meets these in its own scope.  It ends as
if the failed call had not been made when what it meets leads to the same
objects, and so it does when its scope finds everything that the scope of the
failed call found, and both keep linked what they include.  Otherwise the old
objects stay.
-/

namespace IdlLinker

namespace LinkCall

open IdlLinker.Graph

/-- The object that a link call enters first, and the scope that it is linked
in.  A reference to a service is not linked by itself. -/
def root? (scope : Scope) : LinkCall → Option (ObjectId × Scope)
  | spec (.unresolved ⟨.service, _, _⟩) => none
  | spec slot => (target scope slot).toOption.join
  | type slot => (target scope slot).toOption.join
  | service id => some (id, scope)
  | function id => some (id, scope)
  | fields _ _ => none

/-- A call that links a type, a service or a function, and not the fields of a
group one by one. -/
def OfSpec : LinkCall → Prop
  | fields _ _ => False
  | _ => True

/-- A later call ends alike in two graphs, and links all that it reaches. -/
structure Unseen (before after : Graph) (scope : Scope) (call : LinkCall) : Prop where
  alike : EndAlike (call.perform before scope) (call.perform after scope)
  reached : (call.perform before scope).outcome = .ok () → ∀ root home,
    call.root? scope = some (root, home) → ∀ other,
      (call.perform before scope).graph.Reaches root other →
        other ∈ (call.perform before scope).graph.linked

variable {family : Scope → Prop} {before after graph : Graph} {scope home : Scope}
  {call : LinkCall} {root : ObjectId}

theorem done_linkSlot (graph : Graph) (scope : Scope) (slot : Slot) :
    (graph.linkSlot scope slot).done =
      match target scope slot with
      | .error error => ⟨graph, .error error, []⟩
      | .ok none => ⟨graph, .ok (), []⟩
      | .ok (some (id, home)) => graph.linkObject home id := by
  rw [linkSlot_eq, Linked.done]
  cases target scope slot with
  | error error => rfl
  | ok found =>
      cases found with
      | none => rfl
      | some found =>
          dsimp only
          cases ended : (graph.linkObject found.2 found.1).outcome with
          | ok done => simp only [Except.map, ← ended]
          | error error => simp only [Except.map, ← ended]

/-- What a call enters first is where its spec leads. -/
theorem target_of_root? (enters : call.root? scope = some (root, home)) :
    target scope call.subject = .ok (some (root, home)) := by
  have slots (slot : Slot) (found : (target scope slot).toOption.join = some (root, home)) :
      target scope slot = .ok (some (root, home)) := by
    cases leads : target scope slot with
    | error error =>
        rw [leads] at found
        cases found
    | ok entered =>
        rw [leads] at found
        exact congrArg Except.ok found
  cases call with
  | spec slot =>
      cases slot with
      | primitive type => cases enters
      | unresolved reference =>
          obtain ⟨kind, name, line⟩ := reference
          cases kind with
          | type => exact slots _ enters
          | service => cases enters
      | object id => exact slots _ enters
  | type slot => exact slots slot enters
  | service id =>
      cases enters
      rfl
  | function id =>
      cases enters
      rfl
  | fields id part => cases enters

theorem isSome_object?_of_admitted {id : ObjectId} (ofSpec : call.OfSpec)
    (admitted : call.admitted graph = true) (about : call.subject = .object id) :
    (graph.object? id).isSome := by
  cases call with
  | spec slot =>
      obtain rfl : slot = .object id := about
      rcases Bool.or_eq_true_iff.mp admitted with type | service
      · exact isSome_of_fits type
      · exact isSome_of_fits service
  | type slot =>
      obtain rfl : slot = .object id := about
      exact isSome_of_fits admitted
  | service other =>
      cases about
      exact isSome_of_fits admitted
  | function other =>
      cases about
      exact isSome_of_fits admitted
  | fields other part => exact ofSpec.elim

theorem fits_function_of_admitted {id : ObjectId}
    (admitted : (LinkCall.spec (.object id)).admitted graph = true) :
    graph.fits .function (.object id) = false := by
  simp only [LinkCall.admitted, Graph.fits, Bool.or_eq_true, beq_iff_eq] at admitted ⊢
  rcases admitted with type | service
  · simp [type]
  · simp [service]

/-- A call on a spec links the object that it enters first. -/
theorem perform_of_root? (admitted : call.admitted graph = true)
    (enters : call.root? scope = some (root, home)) (same : graph.SameShapes after) :
    call.perform after scope = after.linkObject home root := by
  have slots (slot : Slot) (leads : target scope slot = .ok (some (root, home))) :
      (after.linkSlot scope slot).done = after.linkObject home root := by
    rw [done_linkSlot, leads]
  have leads := target_of_root? enters
  cases call with
  | spec slot =>
      cases slot with
      | primitive type => cases leads
      | unresolved reference =>
          obtain ⟨kind, name, line⟩ := reference
          cases kind with
          | type => exact slots _ leads
          | service => cases enters
      | object id =>
          have apart := fits_function_of_admitted admitted
          rw [LinkCall.perform, linkSpec_object, same.fits_eq, apart, if_neg Bool.false_ne_true]
          exact slots _ leads
  | type slot => exact slots slot leads
  | service id =>
      cases enters
      rfl
  | function id =>
      cases enters
      rfl
  | fields id part => cases enters

/-- A call on a spec that enters no object changes nothing and runs no body. -/
theorem perform_of_root?_none (ofSpec : call.OfSpec) (enters : call.root? scope = none) :
    ∃ outcome, ∀ graph, call.perform graph scope = ⟨graph, outcome, []⟩ := by
  have slots (slot : Slot) (leads : (target scope slot).toOption.join = none) :
      ∃ outcome, ∀ graph, (Graph.linkSlot graph scope slot).done = ⟨graph, outcome, []⟩ := by
    cases leadsTo : target scope slot with
    | error error => exact ⟨.error error, fun graph => by rw [done_linkSlot, leadsTo]⟩
    | ok found =>
        cases found with
        | none => exact ⟨.ok (), fun graph => by rw [done_linkSlot, leadsTo]⟩
        | some found =>
            rw [leadsTo] at leads
            cases leads
  cases call with
  | spec slot =>
      cases slot with
      | primitive type => exact slots _ enters
      | unresolved reference =>
          obtain ⟨kind, name, line⟩ := reference
          cases kind with
          | type => exact slots _ enters
          | service => exact ⟨.ok (), fun graph => rfl⟩
      | object id => cases enters
  | type slot => exact slots slot enters
  | service id => cases enters
  | function id => cases enters
  | fields id part => exact ofSpec.elim

/-- What a call enters first is an object of the graph, and its scope is one of
the family. -/
theorem sound_of_root? (sound : graph.Sound family) (member : family scope)
    (ofSpec : call.OfSpec) (admitted : call.admitted graph = true)
    (enters : call.root? scope = some (root, home)) :
    (graph.object? root).isSome ∧ family home := by
  have leads := target_of_root? enters
  cases about : call.subject with
  | primitive type =>
      rw [about] at leads
      cases leads
  | object id =>
      rw [about] at leads
      cases leads
      exact ⟨isSome_object?_of_admitted ofSpec admitted about, member⟩
  | unresolved reference =>
      rw [about, target] at leads
      split at leads
      · next resolved =>
          cases leads
          rcases sound.scopes.resolve member resolved with ⟨fits, within⟩
          exact ⟨isSome_of_fits fits, within⟩
      · cases leads

/-- A scope that keeps linked what it includes is where its calls begin. -/
theorem home_of_root? (founded : graph.Founded scope)
    (enters : call.root? scope = some (root, home)) : home = scope ∨ root ∈ graph.linked := by
  have leads := target_of_root? enters
  cases about : call.subject with
  | primitive type =>
      rw [about] at leads
      cases leads
  | object id =>
      rw [about] at leads
      cases leads
      exact Or.inl rfl
  | unresolved reference =>
      rw [about, target] at leads
      split at leads
      · next resolved =>
          cases leads
          exact (founded _ _ _ _ resolved).symm
      · cases leads

variable {first second : Scope} {failing later : LinkCall} {error : CompileError}

/-- Where everything that a later call meets leads alike, it ends alike. -/
theorem unseen_of_leadsAlike (sound : before.Sound family) (idle : after.pending = none)
    (leftover : Leftover before after) (member : family scope) (ofSpec : call.OfSpec)
    (admitted : call.admitted before = true)
    (agree : ∀ root home, call.root? scope = some (root, home) →
      LeadsAlike before after home root) : call.Unseen before after scope := by
  cases enters : call.root? scope with
  | none =>
      rcases perform_of_root?_none ofSpec enters with ⟨outcome, nothing⟩
      have stays (id : ObjectId) (marked : id ∈ before.linked) :
          after.object? id = before.object? id := by
        rcases Option.isSome_iff_exists.mp (sound.present id marked) with ⟨spec, object⟩
        rw [object, leftover.later.object?_eq sound.closed marked object]
      constructor
      · rw [nothing, nothing]
        exact ⟨rfl, leftover.same, stays⟩
      · intro _ root home impossible
        rw [enters] at impossible
        cases impossible
  | some entered =>
      obtain ⟨root, home⟩ := entered
      rcases sound_of_root? sound member ofSpec admitted enters with ⟨present, within⟩
      have left := perform_of_root? admitted enters (fun _ => rfl : before.SameShapes before)
      have right := perform_of_root? admitted enters leftover.shapes
      constructor
      · rw [left, right]
        exact sound.linkObject_endAlike within idle leftover (agree root home enters)
      · intro ended other found same target reaches
        rw [enters] at same
        cases same
        rw [left] at ended reaches ⊢
        exact (sound.linkObject within root).closed.mem_linked_of_reaches
          (sound.mem_linked within present ended) reaches

/-- A failed call leaves the marks, and other objects only where references
stood. -/
theorem leftover_of_failed (sound : graph.Sound family) (member : family first)
    (ofSpec : failing.OfSpec)
    (failed : (failing.perform graph first).outcome = .error error) :
    Leftover graph (failing.perform graph first).graph := by
  have undone := undone_of_failed sound member failing failed
  refine ⟨relinked_perform sound.idle first failing, ?_⟩
  cases failing with
  | fields id part => exact ofSpec.elim
  | spec slot => exact undone.1
  | type slot => exact undone.1
  | service id => exact undone.1
  | function id => exact undone.1

/-- A call in a scope that keeps linked what it includes binds references in
that scope. -/
theorem boundIn_perform (sound : graph.Sound family) (ofSpec : call.OfSpec)
    (admitted : call.admitted graph = true) (founded : graph.Founded scope) :
    BoundIn scope graph (call.perform graph scope).graph := by
  cases enters : call.root? scope with
  | none =>
      rcases perform_of_root?_none ofSpec enters with ⟨outcome, nothing⟩
      rw [nothing]
      exact BoundIn.refl scope graph
  | some entered =>
      obtain ⟨root, home⟩ := entered
      rw [perform_of_root? admitted enters (fun _ => rfl : graph.SameShapes graph)]
      rcases exists_visit_linkObject sound.idle home root with ⟨visited, outcome, visit, equation⟩
      have within : (Task.enter root).Within scope 0 home graph :=
        (home_of_root? founded enters).symm.imp_right fun same => ⟨same, Nat.zero_le _⟩
      have bound := (visit.boundIn founded.enclosed (List.Subset.refl _)
        (BoundIn.refl scope graph) within).1
      rw [equation]
      intro other position
      simp only [BoundAt, Graph.slot?, Graph.object?, objects_rollback]
      exact bound other position

end LinkCall

namespace Session

open IdlLinker.Graph

/-- After any sequence of calls, a failed call on a spec leaves all marks.  It
puts objects where references stood, where they stay, and changes nothing else.
A later call on a spec ends as it would without the failed one, and links the
same objects with the same slots, if all that it meets leads to the same objects
with and without the failed call.  This is so when the scope of the later call
finds all objects that the scope of the failed call found, and both keep linked
what they include. -/
theorem failed_link_unseen (calls : List Call) {first second : Scope}
    (firstMember : first ∈ (run calls).scopes) (secondMember : second ∈ (run calls).scopes)
    {failing later : LinkCall} (failingSpec : failing.OfSpec) (laterSpec : later.OfSpec)
    (failingAdmitted : failing.admitted (run calls).graph = true)
    (laterAdmitted : later.admitted (run calls).graph = true) {error : CompileError}
    (failed : (failing.perform (run calls).graph first).outcome = .error error) :
    Leftover (run calls).graph (failing.perform (run calls).graph first).graph ∧
      (∀ id position next,
        (failing.perform (run calls).graph first).graph.slot? id position = some (.object next) →
          (later.perform (failing.perform (run calls).graph first).graph second).graph.slot? id
            position = some (.object next)) ∧
      ((∀ root home, later.root? second = some (root, home) →
          LeadsAlike (run calls).graph (failing.perform (run calls).graph first).graph home root) →
        later.Unseen (run calls).graph (failing.perform (run calls).graph first).graph second) ∧
      ((run calls).graph.Founded first → (run calls).graph.Founded second →
        (∀ kind name id, first.lookup kind name = some id → second.lookup kind name = some id) →
          later.Unseen (run calls).graph (failing.perform (run calls).graph first).graph
            second) := by
  have sound : (run calls).graph.Sound (· ∈ (run calls).scopes) := sound_run calls
  have leftover := LinkCall.leftover_of_failed sound firstMember failingSpec failed
  have idle := (sound.perform firstMember failing).idle
  have unseen := LinkCall.unseen_of_leadsAlike sound idle leftover secondMember laterSpec
    laterAdmitted
  refine ⟨leftover, ?_, unseen, ?_⟩
  · intro id position next held
    have advances := (relinked_perform idle second later).advances id position
    rw [held] at advances
    exact advances.eq_of_object
  · intro firstFounded secondFounded finds
    apply unseen
    intro root home enters
    exact leadsAlike_of_boundIn
      (LinkCall.boundIn_perform sound failingSpec failingAdmitted firstFounded) secondFounded finds
      (LinkCall.home_of_root? secondFounded enters)

/-- A struct of two fields, two structs of the name in its first field, and one
of the name in its second.  The first scope lacks the last; the other two have
it, one with the same struct for the first field and one with another. -/
def correctedScopes : List Call :=
  [.compile (.struct ⟨.struct, "A",
      [{ name := "f", type := .named "B" (.ofInt 2), line := .ofInt 2 },
        { name := "m", type := .named "Missing" (.ofInt 3), line := .ofInt 3 }],
      .ofInt 1⟩),
    .compile (.struct ⟨.struct, "B", [], .ofInt 4⟩),
    .compile (.struct ⟨.struct, "B", [], .ofInt 5⟩),
    .compile (.struct ⟨.struct, "Missing", [], .ofInt 6⟩),
    .createScope [0, 1] [] [], .createScope [0, 1, 3] [] [], .createScope [0, 2, 3] [] []]

def lackingScope : Scope := ⟨1, [("A", 0), ("B", 1)], [], []⟩

def correctedScope : Scope := ⟨2, [("A", 0), ("B", 1), ("Missing", 3)], [], []⟩

def changedScope : Scope := ⟨3, [("A", 0), ("B", 2), ("Missing", 3)], [], []⟩

/-- Linking a struct in a scope that lacks the type of its second field. -/
def failingLink : Linked Unit :=
  (LinkCall.type (.object 0)).perform (run correctedScopes).graph lackingScope

theorem outcome_failingLink : failingLink.outcome =
    .error (.wrapped .link "A" (.unresolvedReference "Missing" (.ofInt 3))) := by
  decide

/-- After the failed link, linking in a scope with another struct for the first
field leaves the struct of the first scope in it.  Without the failed link, the
field is given the struct of its scope. -/
theorem failed_link_seen :
    (run correctedScopes).scopes[1]? = some lackingScope ∧
      (run correctedScopes).scopes[3]? = some changedScope ∧
      (∃ error, failingLink.outcome = .error error) ∧
      ((LinkCall.type (.object 0)).perform (run correctedScopes).graph changedScope).outcome =
        .ok () ∧
      ((LinkCall.type (.object 0)).perform (run correctedScopes).graph
        changedScope).graph.slot? 0 0 = some (.object 2) ∧
      ((LinkCall.type (.object 0)).perform failingLink.graph changedScope).outcome = .ok () ∧
      ((LinkCall.type (.object 0)).perform failingLink.graph changedScope).graph.slot? 0 0 =
        some (.object 1) :=
  ⟨rfl, rfl, ⟨_, outcome_failingLink⟩, by decide, by decide, by decide, by decide⟩

theorem failed_link_unseen_correctedScope :
    lackingScope ∈ (run correctedScopes).scopes ∧ correctedScope ∈ (run correctedScopes).scopes ∧
      (LinkCall.type (.object 0)).OfSpec ∧
      (LinkCall.type (.object 0)).admitted (run correctedScopes).graph = true ∧
      (∃ error, failingLink.outcome = .error error) ∧
      (LinkCall.type (.object 0)).Unseen (run correctedScopes).graph failingLink.graph
        correctedScope :=
  have first : lackingScope ∈ (run correctedScopes).scopes := List.mem_of_getElem? (i := 1) rfl
  have second : correctedScope ∈ (run correctedScopes).scopes := List.mem_of_getElem? (i := 2) rfl
  have ofSpec : (LinkCall.type (.object 0)).OfSpec := trivial
  have admitted : (LinkCall.type (.object 0)).admitted (run correctedScopes).graph = true := by
    decide
  have registers (kind : EntityKind) (name : String) (id : ObjectId)
      (found : Record.get? (lackingScope.table kind) name = some id) :
      Record.get? (correctedScope.table kind) name = some id := by
    cases kind with
    | type =>
        change Record.get? (lackingScope.table .type ++ [("Missing", 3)]) name = some id
        rw [Record.get?_append, found, Option.some_or]
    | service => cases found
  have unseen := failed_link_unseen correctedScopes first second ofSpec ofSpec admitted admitted
    outcome_failingLink
  ⟨first, second, ofSpec, admitted, ⟨_, outcome_failingLink⟩,
    unseen.2.2.2 (founded_of_includes_nil _ rfl) (founded_of_includes_nil _ rfl)
      (Scope.lookup_of_get? rfl registers)⟩

end Session

end IdlLinker
