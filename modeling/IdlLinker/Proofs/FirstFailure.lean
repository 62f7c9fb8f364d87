import IdlLinker.Proofs.Explore
import IdlLinker.Proofs.Lodging

/-!
# The first failure and the way to it

Definitions are compiled and each is registered in one scope, its home; then
they and their parts are linked in their homes, in any order and however often.
After any such history a link call succeeds exactly when every reference that
can be reached from what it asks for resolves, read off the graph as it was
compiled.  Otherwise it fails at the first that does not, in depth-first order
past what is linked already, and the error names that reference under the names
on the way to it.
-/

namespace IdlLinker

namespace LinkCall

/-- A call that links one type, one service or one function. -/
def OfOne : LinkCall → Prop
  | type _ | service _ | function _ => True
  | spec _ | fields _ _ => False

/-- A link call, told from the graph as it was compiled: whether it succeeds,
and where it fails. -/
structure StopsAtFirst (fresh graph : Graph) (scope : Scope) (call : LinkCall) : Prop where
  succeeds : (call.perform graph scope).outcome = .ok () ↔ fresh.AllResolve scope call.subject
  explored : ∃ found after, fresh.Explores scope (.slot call.subject) graph.linked found after
  ends : ∀ found after, fresh.Explores scope (.slot call.subject) graph.linked found after →
    (call.perform graph scope).outcome = LooseEnd.outcome fresh found
  fails : ∀ first others after,
    fresh.Explores scope (.slot call.subject) graph.linked (first :: others) after →
      ∃ error home, (call.perform graph scope).outcome = .error error ∧
        error.root = .unresolvedReference first.reference.name first.reference.line ∧
        error.owners = first.owners fresh ∧
        fresh.Refers scope call.subject first.path home first.reference ∧
        home.resolve first.reference.kind first.reference.name = none

variable {call : LinkCall} {graph : Graph} {scope home : Scope} {id root : ObjectId}

theorem perform_of_target (ofOne : call.OfOne) (graph : Graph) (scope : Scope) :
    call.perform graph scope =
      match Graph.target scope call.subject with
      | .error error => ⟨graph, .error error, []⟩
      | .ok none => ⟨graph, .ok (), []⟩
      | .ok (some (id, home)) => graph.linkObject home id := by
  cases call with
  | spec slot => exact ofOne.elim
  | type slot => exact done_linkSlot graph scope slot
  | service id => rfl
  | function id => rfl
  | fields id part => exact ofOne.elim

theorem admitted_eq {before after : Graph} (same : before.SameShapes after) (call : LinkCall) :
    call.admitted after = call.admitted before := by
  cases call <;> simp only [admitted, same.fits_eq]

theorem OfOne.ofSpec (ofOne : call.OfOne) : call.OfSpec := by
  cases call with
  | fields id part => exact ofOne.elim
  | _ => trivial

theorem OfOne.object?_of_subject (ofOne : call.OfOne) (about : call.subject = .object id) :
    call.object? = some id := by
  cases call with
  | spec slot => exact ofOne.elim
  | type slot =>
      cases about
      rfl
  | service other =>
      cases about
      rfl
  | function other =>
      cases about
      rfl
  | fields other part => exact ofOne.elim

/-- A call enters first the object that is asked, in its scope, or what a
reference resolves to. -/
theorem root?_cases (enters : call.root? scope = some (root, home)) :
    (call.object? = some root ∧ home = scope) ∨
      ∃ reference : Reference,
        scope.resolve reference.kind reference.name = some (root, home) := by
  have leads := target_of_root? enters
  cases about : call.subject with
  | primitive type =>
      rw [about] at leads
      cases leads
  | unresolved reference =>
      right
      rw [about, Graph.target] at leads
      split at leads
      · next resolved =>
          cases leads
          exact ⟨reference, resolved⟩
      · cases leads
  | object id =>
      left
      rw [about] at leads
      cases leads
      cases call with
      | fields other part => cases enters
      | spec slot | type slot =>
          cases about
          exact ⟨rfl, rfl⟩
      | service other | function other =>
          cases about
          exact ⟨rfl, rfl⟩

end LinkCall

/-! ## Link calls, one by one -/

/-- A link call that names the scope of what is without a home keeps positions
bound. -/
theorem BoundApart.perform {family : Scope → Prop} {owner : ObjectId → ObjectId}
    {fresh graph : Graph} {apart : ObjectId → Prop} {shelter scope : Scope} {call : LinkCall}
    (bound : BoundApart fresh apart shelter graph) (homes : Homes family owner fresh)
    (sheltered : Sheltered family owner fresh apart shelter) (sound : graph.Sound family)
    (member : family scope) (admitted : call.admitted graph = true)
    (inside : ∀ id, call.object? = some id → apart id → scope = shelter) :
    BoundApart fresh apart shelter (call.perform graph scope).graph := by
  rcases LinkCall.exists_walks sound.idle scope admitted with
    ⟨bodies, after, outcome, walks, ends⟩
  apply BoundApart.congr _ ends.objects
  cases walks with
  | @entered _ root home _ _ _ enters walk =>
      rcases LinkCall.root?_cases enters with ⟨asked, rfl⟩ | ⟨reference, resolved⟩
      · exact walk.visit.boundApart homes sheltered (sound.ready member) bound (inside root asked)
      · have homeOf := homes.home_of_resolve sound.scopes member resolved
        exact walk.visit.boundApart homes sheltered (sound.ready homeOf.1) bound
          fun apart => absurd homeOf (sheltered.homeless root apart home)
  | nothing _ _ _ => exact bound
  | group object walk =>
      exact walk.visit.boundApart homes sheltered (sound.ready member) bound (inside _ rfl)
  | noGroup _ => exact bound

namespace Graph

variable {family : Scope → Prop} {owner : ObjectId → ObjectId} {fresh graph : Graph}
  {apart : ObjectId → Prop} {shelter scope home : Scope} {id root : ObjectId}

/-- Where a graph leads as the one that it was made of, linking an object ends
as an exploration of that says. -/
theorem outcome_linkObject_of_explores (sound : fresh.Sound family) (member : family home)
    (idle : graph.pending = none) (leftover : Leftover { fresh with linked := graph.linked } graph)
    (agree : LeadsAlike { fresh with linked := graph.linked } graph home root)
    {found : List LooseEnd} {after : List ObjectId}
    (explores : fresh.Explores home (.slot (.object root)) graph.linked found after) :
    (graph.linkObject home root).outcome = LooseEnd.outcome fresh found := by
  have marked : ({ fresh with linked := graph.linked } : Graph).pending = none := sound.idle
  have ready : Ready family home { fresh with linked := graph.linked } :=
    ⟨⟨sound.scopes.registered, sound.scopes.included⟩, member, sound.typed⟩
  rcases exists_visit_linkObject marked home root with ⟨visited, outcome, visit, _⟩
  rcases visit.alike ready agree leftover.alike (Or.inr .root) with ⟨reached, again, _⟩
  rw [linkObject_of_visit idle again]
  have unmarked : fresh.UnmarkedAsIn { fresh with linked := graph.linked } := fun _ _ => rfl
  rcases visit.stops_at_first unmarked trivial explores with
    ⟨rfl, rfl, _⟩ | ⟨first, others, rfl, rfl⟩
  · rfl
  · rfl

/-- A slot leads nowhere, or to a linked object in its scope. -/
def LeadsLinked (family : Scope → Prop) (owner : ObjectId → ObjectId) (apart : ObjectId → Prop)
    (shelter : Scope) (graph : Graph) (scope : Scope) (slot : Slot) : Prop :=
  ∃ found, target scope slot = .ok found ∧ ∀ id home, found = some (id, home) →
    Lodges family owner apart shelter home id ∧ id ∈ graph.linked

/-- What a linked object was compiled with leads to linked objects. -/
theorem leadsLinked_of_slot? (homes : Homes family owner fresh)
    (sheltered : Sheltered family owner fresh apart shelter) (sound : SoundScopes fresh family)
    (bound : Bound family owner fresh graph) (boundApart : BoundApart fresh apart shelter graph)
    (closed : graph.Closed) (lodges : Lodges family owner apart shelter scope id)
    (marked : id ∈ graph.linked) {position : Nat} {slot : Slot}
    (held : fresh.slot? id position = some slot) :
    LeadsLinked family owner apart shelter graph scope slot := by
  have onward (next : ObjectId) (home : Scope)
      (leads : target scope slot = .ok (some (next, home))) :
      Lodges family owner apart shelter home next :=
    lodges.onward homes sheltered sound (by rw [leadsTo, held]; exact leads)
  rcases lodges.slot?_cases bound boundApart position with
    same | ⟨reference, meant, home, written, resolved, stored⟩
  · have linked := closed.isLinked_of_slot? marked (same.trans held)
    cases slot with
    | primitive type => exact ⟨none, rfl, by simp⟩
    | unresolved reference => cases linked
    | object next =>
        refine ⟨some (next, scope), rfl, fun other home found => ?_⟩
        cases found
        exact ⟨onward _ _ rfl, (graph.isLinked_object _).mp linked⟩
  · rw [written] at held
    cases held
    have leads : target scope (.unresolved reference) = .ok (some (meant, home)) := by
      rw [target, resolved]
    refine ⟨some (meant, home), leads, fun other last found => ?_⟩
    cases found
    exact ⟨onward _ _ leads, (graph.isLinked_object _).mp (closed.isLinked_of_slot? marked stored)⟩

/-- Everything that a linked object leads to resolves. -/
theorem isSome_of_refers (homes : Homes family owner fresh)
    (sheltered : Sheltered family owner fresh apart shelter) (sound : SoundScopes fresh family)
    (bound : Bound family owner fresh graph) (boundApart : BoundApart fresh apart shelter graph)
    (closed : graph.Closed) {slot : Slot} {path : List (ObjectId × Nat)} {reference : Reference}
    (refers : fresh.Refers scope slot path home reference)
    (leads : LeadsLinked family owner apart shelter graph scope slot) :
    (home.resolve reference.kind reference.name).isSome := by
  induction refers with
  | @here scope reference =>
      rcases leads with ⟨found, leads, _⟩
      rw [target] at leads
      split at leads
      · next resolved => rw [resolved]; rfl
      · cases leads
  | through resolves _ hypothesis =>
      rcases leads with ⟨found, leads, linked⟩
      simp only [target, resolves, Except.ok.injEq] at leads
      refine hypothesis ⟨_, rfl, fun other last same => ?_⟩
      cases same
      exact linked _ _ leads.symm
  | under held _ hypothesis =>
      rcases leads with ⟨found, leads, linked⟩
      cases leads
      rcases linked _ _ rfl with ⟨lodges, marked⟩
      exact hypothesis
        (leadsLinked_of_slot? homes sheltered sound bound boundApart closed lodges marked held)

end Graph

/-! ## Histories of calls -/

namespace Session

/-- Where a call asks for something that belongs to no registered object, the
calls before it on what holds that, or is held by it, name its scope too. -/
def KeepsScope (session : Session) (calls : List (LinkCall × Nat)) (call : LinkCall)
    (scope : Scope) : Prop :=
  ∀ asked, call.object? = some asked →
    (∀ home ∈ session.scopes, ∀ root, home.Registers root →
      ¬ session.graph.Reaches root asked) →
    ∀ earlier ∈ calls, ∀ id, earlier.1.object? = some id →
      Relation.EqvGen session.graph.Holds asked id →
        ∀ other, session.scopes[earlier.2]? = some other → other = scope

/-- What holds the object of a call, or is held by it, where it has no home. -/
def Apart (fresh : Session) (owner : ObjectId → ObjectId) (call : LinkCall) (id : ObjectId) :
    Prop :=
  ∃ asked, call.object? = some asked ∧ Relation.EqvGen fresh.graph.Holds asked id ∧
    ∀ home, ¬ Home (· ∈ fresh.scopes) owner home asked

variable {fresh session : Session} {owner : ObjectId → ObjectId} {scope : Scope}
  {calls : List (LinkCall × Nat)} {last : LinkCall}

theorem home_of_related (homes : Homes (· ∈ fresh.scopes) owner fresh.graph) {home : Scope}
    {left right : ObjectId} (related : Relation.EqvGen fresh.graph.Holds left right) :
    Home (· ∈ fresh.scopes) owner home left ↔ Home (· ∈ fresh.scopes) owner home right := by
  induction related with
  | rel left right holds => exact (homes.home_of_holds holds).symm
  | refl id => exact Iff.rfl
  | symm left right _ hypothesis => exact hypothesis.symm
  | trans left middle right _ _ first second => exact first.trans second

theorem sheltered_apart (homes : Homes (· ∈ fresh.scopes) owner fresh.graph)
    (member : scope ∈ fresh.scopes) (call : LinkCall) :
    Sheltered (· ∈ fresh.scopes) owner fresh.graph (Apart fresh owner call) scope where
  member := member
  holds holder id holds := by
    have edge := Relation.EqvGen.rel holder id holds
    constructor
    · rintro ⟨asked, same, related, homeless⟩
      exact ⟨asked, same, related.trans _ _ _ edge.symm, homeless⟩
    · rintro ⟨asked, same, related, homeless⟩
      exact ⟨asked, same, related.trans _ _ _ edge, homeless⟩
  homeless id apart home homeOf := by
    rcases apart with ⟨asked, _, related, homeless⟩
    exact homeless home ((home_of_related homes related).mpr homeOf)

/-- A call of the history keeps the positions of what is without a home
bound. -/
theorem boundApart_perform (binds : Binds owner fresh session)
    (homes : Homes (· ∈ fresh.scopes) owner fresh.graph) (known : scope ∈ fresh.scopes)
    (keeps : fresh.KeepsScope calls last scope) {call : LinkCall} {index : Nat}
    (member : (call, index) ∈ calls)
    (bound : BoundApart fresh.graph (Apart fresh owner last) scope session.graph) :
    BoundApart fresh.graph (Apart fresh owner last) scope
      (session.perform (.link call index)).graph := by
  simp only [Session.perform]
  split
  · next other held =>
      rw [binds.scopes] at held
      split
      · next admitted =>
          apply bound.perform homes (sheltered_apart homes known last) binds.sound
            (List.mem_of_getElem? held) admitted
          rintro id asked ⟨lastAsked, same, related, homeless⟩
          apply keeps lastAsked same _ _ member id asked related other held
          exact fun home homeMember root registers reaches =>
            homeless home (home_of_reaches homes homeMember registers reaches)
      · exact bound
  · exact bound

theorem link_append (session : Session) (calls : List (LinkCall × Nat)) (call : LinkCall × Nat) :
    session.link (calls ++ [call]) = (session.link calls).perform (.link call.1 call.2) := by
  rw [link, List.foldl_append]
  rfl

/-- A call that is admitted leaves the graph that linking leaves. -/
theorem link_append_eq (binds : Binds owner fresh (fresh.link calls)) {call : LinkCall}
    {index : Nat} (held : fresh.scopes[index]? = some scope)
    (admitted : call.admitted fresh.graph = true) :
    fresh.link (calls ++ [(call, index)]) = (fresh.link calls).withGraph
      (call.perform (fresh.link calls).graph scope).graph := by
  rw [link_append, Session.perform, binds.scopes, held]
  exact if_pos ((LinkCall.admitted_eq binds.shapes call).trans admitted)

/-- A call names the scope that it names. -/
theorem KeepsScope.append_self {index : Nat} (keeps : fresh.KeepsScope calls last scope)
    (held : fresh.scopes[index]? = some scope) :
    fresh.KeepsScope (calls ++ [(last, index)]) last scope := by
  intro asked same homeless earlier member id found related other foundHeld
  rcases List.mem_append.mp member with before | here
  · exact keeps asked same homeless earlier before id found related other foundHeld
  · obtain rfl := List.mem_singleton.mp here
    exact Option.some.inj (foundHeld.symm.trans held)

/-- After any of the calls, positions are bound in homes or where the last call
is made. -/
theorem bound_link (prepared : fresh.Prepared)
    (homes : Homes (· ∈ fresh.scopes) owner fresh.graph) (parted : fresh.graph.Parted owner)
    (inHomes : fresh.InHomes calls) (known : scope ∈ fresh.scopes)
    (keeps : fresh.KeepsScope calls last scope) (done : List (LinkCall × Nat))
    (within : done ⊆ calls) :
    Binds owner fresh (fresh.link done) ∧
      BoundApart fresh.graph (Apart fresh owner last) scope (fresh.link done).graph := by
  induction done using List.reverseRecOn with
  | nil => exact ⟨Binds.refl prepared owner, BoundApart.refl _ _ _⟩
  | append_singleton earlier call hypothesis =>
      rcases hypothesis fun other member => within (List.mem_append_left _ member) with
        ⟨binds, bound⟩
      have member : call ∈ calls := within (List.mem_append_right _ List.mem_cons_self)
      rw [link_append]
      exact ⟨binds.perform prepared homes parted inHomes member,
        boundApart_perform binds homes known keeps member bound⟩

/-- Linking leaves a graph that differs from the one as compiled in marks and in
references that became objects. -/
theorem Binds.leftover (binds : Binds owner fresh session) :
    Graph.Leftover { fresh.graph with linked := session.graph.linked } session.graph where
  linked := List.Subset.refl _
  advances id position := by
    rcases binds.bound id position with same | ⟨reference, target, binding⟩
    · exact Or.inl same
    · exact Or.inr ⟨reference, target, binding.written, binding.held⟩
  shapes := binds.shapes
  same := rfl

variable {call : LinkCall} {index : Nat}

/-- What a call leads to first is linked in its home, or in the scope of the
call where it has none. -/
theorem lodges_target (prepared : fresh.Prepared)
    (homes : Homes (· ∈ fresh.scopes) owner fresh.graph) (parted : fresh.graph.Parted owner)
    (inHomes : fresh.InHomes calls) (member : (call, index) ∈ calls)
    (held : fresh.scopes[index]? = some scope) (ofOne : call.OfOne)
    (admitted : call.admitted fresh.graph = true) {id : ObjectId} {home : Scope}
    (leads : Graph.target scope call.subject = .ok (some (id, home))) :
    Lodges (· ∈ fresh.scopes) owner (Apart fresh owner call) scope home id ∧
      (fresh.graph.object? id).isSome := by
  cases about : call.subject with
  | primitive type =>
      rw [about] at leads
      cases leads
  | object asked =>
      rw [about] at leads
      cases leads
      have present := LinkCall.isSome_object?_of_admitted ofOne.ofSpec admitted about
      have atHome := inHomes.atHome prepared parted member held (ofOne.object?_of_subject about)
        present
      refine ⟨?_, present⟩
      by_cases housed : ∃ other, Home (· ∈ fresh.scopes) owner other id
      · rcases housed with ⟨other, otherHome⟩
        exact Or.inl (atHome.home other otherHome ▸ otherHome)
      · exact Or.inr ⟨⟨id, ofOne.object?_of_subject about, .refl id,
          fun other otherHome => housed ⟨other, otherHome⟩⟩, rfl⟩
  | unresolved reference =>
      rw [about, Graph.target] at leads
      split at leads
      · next resolved =>
          cases leads
          have known := List.mem_of_getElem? held
          have fits := (prepared.sound.scopes.resolve known resolved).1
          exact ⟨Or.inl (homes.home_of_resolve prepared.sound.scopes known resolved),
            Graph.isSome_of_fits fits⟩
      · cases leads

/-- A call at the end of a history: what is bound before it and after it, and
where it begins. -/
structure Poised (owner : ObjectId → ObjectId) (fresh session : Session) (scope : Scope)
    (call : LinkCall) : Prop where
  homes : Homes (· ∈ fresh.scopes) owner fresh.graph
  sound : fresh.graph.Sound (· ∈ fresh.scopes)
  sheltered : Sheltered (· ∈ fresh.scopes) owner fresh.graph (Apart fresh owner call) scope
  binds : Binds owner fresh session
  before : BoundApart fresh.graph (Apart fresh owner call) scope session.graph
  bindsAfter : Binds owner fresh (session.withGraph (call.perform session.graph scope).graph)
  after : BoundApart fresh.graph (Apart fresh owner call) scope
    (call.perform session.graph scope).graph
  start : ∀ id home, Graph.target scope call.subject = .ok (some (id, home)) →
    Lodges (· ∈ fresh.scopes) owner (Apart fresh owner call) scope home id ∧
      (fresh.graph.object? id).isSome

namespace Poised

/-- The call ends as an exploration of the graph as compiled says. -/
theorem outcome_eq (poised : Poised owner fresh session scope call) (ofOne : call.OfOne)
    {found : List LooseEnd} {after : List ObjectId}
    (explores : fresh.graph.Explores scope (.slot call.subject) session.graph.linked found after) :
    (call.perform session.graph scope).outcome = LooseEnd.outcome fresh.graph found := by
  rw [LinkCall.perform_of_target ofOne]
  cases leads : Graph.target scope call.subject with
  | error error =>
      rcases explores.of_target_error leads with ⟨loose, rfl, rfl⟩
      rfl
  | ok target =>
      cases target with
      | none =>
          rcases explores.of_target_none leads with ⟨rfl, _⟩
          rfl
      | some target =>
          obtain ⟨id, home⟩ := target
          have lodges := (poised.start id home leads).1
          have agree := lodges.leadsAlike poised.homes poised.sheltered poised.sound.scopes
            poised.binds.bound poised.before
          exact Graph.outcome_linkObject_of_explores poised.sound (lodges.member poised.sheltered)
            poised.binds.sound.idle poised.binds.leftover agree (explores.of_target_some leads)

/-- What a call that succeeds asked for is linked in the end. -/
theorem leadsLinked (poised : Poised owner fresh session scope call) (ofOne : call.OfOne)
    (ended : (call.perform session.graph scope).outcome = .ok ()) :
    Graph.LeadsLinked (· ∈ fresh.scopes) owner (Apart fresh owner call) scope
      (call.perform session.graph scope).graph scope call.subject := by
  have performed := LinkCall.perform_of_target ofOne session.graph scope
  cases leads : Graph.target scope call.subject with
  | error error =>
      rw [performed, leads] at ended
      cases ended
  | ok target =>
      refine ⟨target, leads, ?_⟩
      rintro id home rfl
      rcases poised.start id home leads with ⟨lodges, present⟩
      refine ⟨lodges, ?_⟩
      rw [leads] at performed
      rw [performed] at ended ⊢
      rcases Option.isSome_iff_exists.mp present with ⟨spec, object⟩
      rcases poised.binds.shapes.exists_object object with ⟨changed, found, _⟩
      exact poised.binds.sound.mem_linked (lodges.member poised.sheltered) (by rw [found]; rfl)
        ended

/-- Where a call succeeds, everything that can be reached resolves. -/
theorem allResolve (poised : Poised owner fresh session scope call) (ofOne : call.OfOne)
    (ended : (call.perform session.graph scope).outcome = .ok ()) :
    fresh.graph.AllResolve scope call.subject := by
  intro path home reference refers
  exact Graph.isSome_of_refers poised.homes poised.sheltered poised.sound.scopes
    poised.bindsAfter.bound poised.after poised.bindsAfter.sound.closed refers
    (poised.leadsLinked ofOne ended)

theorem stopsAtFirst (poised : Poised owner fresh session scope call) (ofOne : call.OfOne) :
    call.StopsAtFirst fresh.graph session.graph scope where
  succeeds := by
    refine ⟨poised.allResolve ofOne, fun resolve => ?_⟩
    rcases Graph.exists_explores fresh.graph scope call.subject session.graph.linked with
      ⟨found, after, explores⟩
    rw [poised.outcome_eq ofOne explores, explores.eq_nil_of_allResolve resolve]
    rfl
  explored := Graph.exists_explores fresh.graph scope call.subject session.graph.linked
  ends found after explores := poised.outcome_eq ofOne explores
  fails first others after explores := by
    rcases explores.refers first List.mem_cons_self with ⟨home, refers, unresolved⟩
    exact ⟨first.error fresh.graph, home, poised.outcome_eq ofOne explores,
      first.root_error fresh.graph, first.owners_error fresh.graph, refers, unresolved⟩

end Poised

/-- A struct that holds another, which names a struct that is not there. -/
def danglingStructs : List Call :=
  [.compile (.struct ⟨.struct, "A",
      [{ name := "b", type := .named "B" (.ofInt 2), line := .ofInt 2 }], .ofInt 1⟩),
    .compile (.struct ⟨.struct, "B",
      [{ name := "m", type := .named "Missing" (.ofInt 4), line := .ofInt 4 }], .ofInt 3⟩),
    .createScope [0, 1] [] []]

/-- The home of both structs. -/
def danglingScope : Scope := ⟨1, [("A", 0), ("B", 1)], [], []⟩

theorem scopes_danglingStructs : (run danglingStructs).scopes = [Scope.empty, danglingScope] := rfl

theorem eq_danglingScope_of_registers {home : Scope} {id : ObjectId}
    (member : home ∈ (run danglingStructs).scopes) (registers : home.Registers id) :
    home = danglingScope := by
  rw [scopes_danglingStructs] at member
  rcases List.mem_cons.mp member with rfl | later
  · rcases registers with ⟨kind, name, found⟩
    cases kind <;> cases found
  · exact List.mem_singleton.mp later

end Session

end IdlLinker
