import IdlLinker.Proofs.Homes
import IdlLinker.Proofs.LinkedSpecs
import IdlLinker.Proofs.Parted
import IdlLinker.Proofs.Progress

/-!
# Linking binds by home scope

Definitions are compiled and each is registered in one scope, its home; then
they and their parts are linked in their homes, in any order and however often.
After each call every position of a definition holds what compilation put there
or what its reference stands for in the definition's home, and a linked
definition has all of its references bound.  So the order of the calls, and what
failed in between, does not show in what is linked in the end.
-/

namespace IdlLinker

namespace LinkCall

/-- The object that is asked to be linked; a base type is none, and a reference
is linked where it is registered. -/
def object? : LinkCall → Option ObjectId
  | spec (.object id) => some id
  | type (.object id) => some id
  | service id => some id
  | function id => some id
  | fields id _ => some id
  | _ => none

end LinkCall

variable {family : Scope → Prop} {owner : ObjectId → ObjectId} {fresh graph : Graph}
  {scope : Scope} {id : ObjectId}

/-- No object is unfinished between two linkings. -/
abbrev AtHome (family : Scope → Prop) (owner : ObjectId → ObjectId) (scope : Scope)
    (id : ObjectId) : Prop :=
  Homed family owner scope (fun _ => False) id

theorem atHome_of_home (home : ∀ other, Home family owner other id → other = scope) :
    AtHome family owner scope id :=
  ⟨home, fun _ nothing => nothing.elim⟩

theorem Graph.resolvedFrom_of_absent (absent : graph.object? id = none) :
    graph.ResolvedFrom id := by
  have empty (position : Nat) : graph.slot? id position = none := by
    rw [slot?, absent]
    rfl
  intro other reaches position reference held
  rcases Relation.ReflTransGen.cases_head reaches with rfl | ⟨child, ⟨index, holds⟩, _⟩
  · rw [empty] at held
    cases held
  · rw [empty] at holds
    cases holds

namespace Bound

theorem linkObject (bound : Bound family owner fresh graph) (homes : Homes family owner fresh)
    (sound : graph.Sound family) (member : family scope)
    (safe : graph.ResolvedFrom id ∨ AtHome family owner scope id) :
    Bound family owner fresh (graph.linkObject scope id).graph := by
  rcases Graph.exists_visit_linkObject sound.idle scope id with
    ⟨visited, outcome, visit, equation⟩
  have visitedBound := visit.bound homes (sound.ready member) bound sound.closed safe
  rw [equation]
  exact visitedBound.congr (Graph.objects_rollback graph visited outcome)

theorem linkPosition (bound : Bound family owner fresh graph) (homes : Homes family owner fresh)
    (sound : graph.Sound family) (member : family scope) (atHome : AtHome family owner scope id)
    (position : Nat) :
    Bound family owner fresh (graph.linkPosition scope id position).graph := by
  rw [Graph.linkPosition_eq]
  cases leads : graph.leadsTo scope id position with
  | error error => exact bound
  | ok found =>
      cases found with
      | none => exact bound
      | some found =>
          obtain ⟨next, home⟩ := found
          have ready := sound.ready member
          have onward := (ready.onward leads).member
          have safe := bound.onward homes sound.scopes member atHome leads
          have entered := bound.linkObject homes sound onward safe
          have marked := sound.mem_linked onward (ready.present leads)
          have progress := Graph.progress_linkObject sound.idle home next
          dsimp only
          cases ended : (graph.linkObject home next).outcome with
          | error error => exact entered
          | ok done =>
              exact bound.stored homes sound.scopes member atHome leads
                (progress.advances id position) entered (sound.linkObject onward next).closed
                (marked ended)

theorem linkPositions (bound : Bound family owner fresh graph) (homes : Homes family owner fresh)
    (sound : graph.Sound family) (member : family scope) (atHome : AtHome family owner scope id)
    (positions : List Nat) :
    Bound family owner fresh (graph.linkPositions scope id positions).graph := by
  induction positions generalizing graph with
  | nil => exact bound
  | cons position rest hypothesis =>
      have first := bound.linkPosition homes sound member atHome position
      simp only [Graph.linkPositions]
      split
      · exact hypothesis first (sound.linkPosition member id position)
      · exact first

theorem linkSlot (bound : Bound family owner fresh graph) (homes : Homes family owner fresh)
    (sound : graph.Sound family) (member : family scope) {slot : Slot}
    (safe : ∀ id, slot = .object id → graph.ResolvedFrom id ∨ AtHome family owner scope id) :
    Bound family owner fresh (graph.linkSlot scope slot).graph := by
  cases slot with
  | primitive type => exact bound
  | object id => exact bound.linkObject homes sound member (safe id rfl)
  | unresolved reference =>
      rw [Graph.linkSlot_eq]
      simp only [Graph.target]
      cases resolved : scope.resolve reference.kind reference.name with
      | none => exact bound
      | some found =>
          have home := homes.home_of_resolve sound.scopes member resolved
          apply bound.linkObject homes sound home.1
          exact Or.inr (atHome_of_home fun other otherHome => homes.home_unique otherHome home)

/-- A link call in the home of what it links keeps positions bound. -/
theorem perform (bound : Bound family owner fresh graph) (homes : Homes family owner fresh)
    (sound : graph.Sound family) (member : family scope) (call : LinkCall)
    (atHome : ∀ id, call.object? = some id → (graph.object? id).isSome →
      AtHome family owner scope id) :
    Bound family owner fresh (call.perform graph scope).graph := by
  have safe (id : ObjectId) (asked : call.object? = some id) :
      graph.ResolvedFrom id ∨ AtHome family owner scope id := by
    cases object : graph.object? id with
    | none => exact Or.inl (Graph.resolvedFrom_of_absent object)
    | some spec => exact Or.inr (atHome id asked (by rw [object]; rfl))
  cases call with
  | spec slot =>
      have linked : Bound family owner fresh (graph.linkSlot scope slot).graph := by
        apply bound.linkSlot homes sound member
        rintro id rfl
        exact safe id rfl
      rcases graph.linkSpec_cases scope slot with nothing | same
      · simp only [LinkCall.perform, nothing]
        exact bound
      · simp only [LinkCall.perform, same graph fun _ => rfl]
        exact linked
  | type slot =>
      apply bound.linkSlot homes sound member
      rintro id rfl
      exact safe id rfl
  | service id => exact bound.linkObject homes sound member (safe id rfl)
  | function id => exact bound.linkObject homes sound member (safe id rfl)
  | fields id part =>
      simp only [LinkCall.perform, Graph.linkFieldGroup]
      cases object : graph.object? id with
      | none => exact bound
      | some spec =>
          exact bound.linkPositions homes sound member (atHome id rfl (by rw [object]; rfl)) _

end Bound

namespace Session

open IdlLinker.Graph

/-- Link calls made one after another; each names its scope. -/
def link (session : Session) (calls : List (LinkCall × Nat)) : Session :=
  calls.foldl (fun session call => session.perform (.link call.1 call.2)) session

/-- No object is registered in two scopes. -/
def Exclusive (session : Session) : Prop :=
  ∀ first ∈ session.scopes, ∀ second ∈ session.scopes, ∀ id,
    first.Registers id → second.Registers id → first = second

/-- What belongs to a registered object is linked in the scope that registers
it. -/
def InHomes (session : Session) (calls : List (LinkCall × Nat)) : Prop :=
  ∀ call ∈ calls, ∀ scope, session.scopes[call.2]? = some scope →
    ∀ home ∈ session.scopes, ∀ root, home.Registers root →
      ∀ id, call.1.object? = some id → session.graph.Reaches root id → scope = home

/-- Positions of what belongs to a registered object are as compiled or bound in
its home, and in what is linked all references are bound. -/
def BoundByHome (fresh session : Session) : Prop :=
  ∀ home ∈ fresh.scopes, ∀ root, home.Registers root → ∀ id, fresh.graph.Reaches root id →
    (∀ position, session.graph.slot? id position = fresh.graph.slot? id position ∨
      ∃ reference, BoundAt fresh.graph session.graph home id position reference) ∧
    (id ∈ session.graph.linked → ∀ other, fresh.graph.Reaches id other → ∀ position reference,
      fresh.graph.slot? other position = some (.unresolved reference) →
        BoundAt fresh.graph session.graph home other position reference)

variable {fresh session : Session}

theorem Prepared.homes (prepared : fresh.Prepared) (exclusive : fresh.Exclusive)
    (parted : fresh.graph.Parted owner) : Homes (· ∈ fresh.scopes) owner fresh.graph where
  holds := parted.holds
  owned scope member id registers := by
    rcases prepared.registered scope member id registers with ⟨spec, object, isDefined⟩
    exact parted.defined id spec object isDefined
  unique first second firstMember secondMember := exclusive first firstMember second secondMember

/-- What is asked for is linked at home. -/
theorem InHomes.atHome {calls : List (LinkCall × Nat)} (inHomes : fresh.InHomes calls)
    (prepared : fresh.Prepared) (parted : fresh.graph.Parted owner) {call : LinkCall × Nat}
    (member : call ∈ calls) (held : fresh.scopes[call.2]? = some scope)
    (asked : call.1.object? = some id) (present : (fresh.graph.object? id).isSome) :
    AtHome (· ∈ fresh.scopes) owner scope id := by
  apply atHome_of_home
  rintro other ⟨otherMember, registers⟩
  rcases prepared.registered other otherMember (owner id) registers with ⟨spec, object, isDefined⟩
  rcases Option.isSome_iff_exists.mp present with ⟨found, idObject⟩
  have reaches := parted.reaches id spec (lt_size_of_object? idObject) object isDefined
  exact (inHomes call member scope held other otherMember _ registers id asked reaches).symm

/-- What link calls preserve: scopes and shapes stay, the graph is sound, and
positions are bound. -/
structure Binds (owner : ObjectId → ObjectId) (fresh session : Session) : Prop where
  scopes : session.scopes = fresh.scopes
  shapes : fresh.graph.SameShapes session.graph
  sound : session.graph.Sound (· ∈ fresh.scopes)
  bound : Bound (· ∈ fresh.scopes) owner fresh.graph session.graph

theorem Binds.refl (prepared : fresh.Prepared) (owner : ObjectId → ObjectId) :
    Binds owner fresh fresh where
  scopes := rfl
  shapes _ := rfl
  sound := prepared.sound
  bound := Bound.refl _ owner fresh.graph

theorem Binds.perform (binds : Binds owner fresh session) (prepared : fresh.Prepared)
    (homes : Homes (· ∈ fresh.scopes) owner fresh.graph) (parted : fresh.graph.Parted owner)
    {calls : List (LinkCall × Nat)} (inHomes : fresh.InHomes calls) {call : LinkCall × Nat}
    (member : call ∈ calls) : Binds owner fresh (session.perform (.link call.1 call.2)) := by
  simp only [Session.perform]
  split
  · next scope held =>
      split
      · rw [binds.scopes] at held
        have known := List.mem_of_getElem? held
        refine ⟨binds.scopes, ?_, Graph.Sound.perform binds.sound known call.1, ?_⟩
        · have step := (relinked_perform binds.sound.idle scope call.1).shapes
          exact fun id => (step id).trans (binds.shapes id)
        · apply binds.bound.perform homes binds.sound known
          intro id asked present
          apply inHomes.atHome prepared parted member held asked
          rcases Option.isSome_iff_exists.mp present with ⟨spec, object⟩
          rcases binds.shapes.symm.exists_object object with ⟨old, oldObject, _⟩
          rw [oldObject]
          rfl
      · exact binds
  · exact binds

theorem Binds.link (prepared : fresh.Prepared)
    (homes : Homes (· ∈ fresh.scopes) owner fresh.graph) (parted : fresh.graph.Parted owner)
    {calls : List (LinkCall × Nat)} (inHomes : fresh.InHomes calls) :
    Binds owner fresh (fresh.link calls) := by
  have step (done : List (LinkCall × Nat)) (within : ∀ call ∈ done, call ∈ calls)
      (session : Session) (binds : Binds owner fresh session) :
      Binds owner fresh (session.link done) := by
    induction done generalizing session with
    | nil => exact binds
    | cons call rest hypothesis =>
        apply hypothesis
        · exact fun other member => within other (List.mem_cons_of_mem _ member)
        · exact binds.perform prepared homes parted inHomes (within call List.mem_cons_self)
  exact step calls (fun _ member => member) fresh (Binds.refl prepared owner)

theorem Binds.boundAt (binds : Binds owner fresh session) {home : Scope}
    (homeOf : Home (· ∈ fresh.scopes) owner home id) (position : Nat) :
    session.graph.slot? id position = fresh.graph.slot? id position ∨
      ∃ reference, BoundAt fresh.graph session.graph home id position reference := by
  rcases binds.bound id position with same | ⟨reference, target, binding⟩
  · exact Or.inl same
  · rcases binding.resolves home homeOf with ⟨_, resolved⟩
    refine Or.inr ⟨reference, binding.written, target, ?_, binding.held⟩
    rw [Scope.lookup, resolved]
    rfl

theorem Binds.reaches (binds : Binds owner fresh session) {other : ObjectId}
    (reaches : fresh.graph.Reaches id other) : session.graph.Reaches id other := by
  refine Relation.ReflTransGen.mono ?_ id other reaches
  rintro holder child ⟨position, held⟩
  refine ⟨position, ?_⟩
  rcases binds.bound holder position with same | ⟨reference, target, binding⟩
  · exact same.trans held
  · rw [binding.written] at held
    cases held

theorem home_of_reaches (homes : Homes (· ∈ fresh.scopes) owner fresh.graph) {home : Scope}
    (member : home ∈ fresh.scopes) {root : ObjectId} (registers : home.Registers root)
    (reaches : fresh.graph.Reaches root id) : Home (· ∈ fresh.scopes) owner home id := by
  induction reaches with
  | refl => exact ⟨member, by rwa [homes.owned home member root registers]⟩
  | tail _ holds hypothesis => exact (homes.home_of_holds holds).mpr hypothesis

/-- In what is linked every reference is bound. -/
theorem Binds.boundAt_of_linked (binds : Binds owner fresh session) {home : Scope}
    {other : ObjectId} {position : Nat} {reference : Reference}
    (homeOf : Home (· ∈ fresh.scopes) owner home other) (marked : id ∈ session.graph.linked)
    (reaches : fresh.graph.Reaches id other)
    (written : fresh.graph.slot? other position = some (.unresolved reference)) :
    BoundAt fresh.graph session.graph home other position reference := by
  have reached := binds.sound.closed.mem_linked_of_reaches marked (binds.reaches reaches)
  rcases binds.boundAt homeOf position with same | ⟨found, bound⟩
  · exact absurd (same.trans written)
      (binds.sound.closed.slot?_ne_unresolved reached position reference)
  · have names := bound.1
    rw [written] at names
    cases names
    exact bound

theorem Binds.boundByHome (binds : Binds owner fresh session)
    (homes : Homes (· ∈ fresh.scopes) owner fresh.graph) : BoundByHome fresh session := by
  intro home member root registers id reaches
  refine ⟨binds.boundAt (home_of_reaches homes member registers reaches), ?_⟩
  intro marked other further position reference written
  exact binds.boundAt_of_linked
    (home_of_reaches homes member registers (reaches.trans further)) marked further written

/-- What is linked in two sessions holds the same in both. -/
theorem Binds.slot?_eq {left right : Session} (first : Binds owner fresh left)
    (second : Binds owner fresh right) {home : Scope} {other : ObjectId}
    (homeOf : Home (· ∈ fresh.scopes) owner home other) (reaches : fresh.graph.Reaches id other)
    (leftMarked : id ∈ left.graph.linked) (rightMarked : id ∈ right.graph.linked)
    (position : Nat) : left.graph.slot? other position = right.graph.slot? other position := by
  rcases first.boundAt homeOf position with leftSame | ⟨reference, written, bound⟩
  · rcases second.boundAt homeOf position with rightSame | ⟨reference, written, _⟩
    · rw [leftSame, rightSame]
    · rcases first.boundAt_of_linked homeOf leftMarked reaches written with ⟨_, target, _, held⟩
      rw [leftSame, written] at held
      cases held
  · rcases bound with ⟨target, resolved, held⟩
    rcases second.boundAt_of_linked homeOf rightMarked reaches written with
      ⟨_, other, otherResolved, otherHeld⟩
    rw [resolved] at otherResolved
    cases otherResolved
    rw [held, otherHeld]

/-- Whatever the order of the calls and whatever failed among them, positions
are bound in homes, and two ways of linking one object give the same. -/
theorem slots_bound_by_home (setup : List Call) (prepares : ∀ call ∈ setup, call.prepares = true)
    (exclusive : (run setup).Exclusive) (first second : List (LinkCall × Nat))
    (firstInHomes : (run setup).InHomes first) (secondInHomes : (run setup).InHomes second) :
    BoundByHome (run setup) ((run setup).link first) ∧
      ∀ home ∈ (run setup).scopes, ∀ root, home.Registers root → ∀ id,
        (run setup).graph.Reaches root id →
        id ∈ ((run setup).link first).graph.linked → id ∈ ((run setup).link second).graph.linked →
        ∀ other, (run setup).graph.Reaches id other → ∀ position,
          ((run setup).link first).graph.slot? other position =
            ((run setup).link second).graph.slot? other position := by
  have prepared := prepared_run prepares
  rcases prepared.parted with ⟨owner, parted⟩
  have homes := prepared.homes exclusive parted
  have left := Binds.link prepared homes parted firstInHomes
  have right := Binds.link prepared homes parted secondInHomes
  refine ⟨left.boundByHome homes, ?_⟩
  intro home member root registers id reaches leftMarked rightMarked other further position
  exact left.slot?_eq right (home_of_reaches homes member registers (reaches.trans further)) further
    leftMarked rightMarked position

/-- Two structs of one name; the second names both. -/
def twoNodes : List Call :=
  [.compile (.struct ⟨.struct, "Node", [], .ofInt 1⟩),
    .compile (.struct ⟨.struct, "Node",
      [{ name := "other", type := .named "inc.Node" (.ofInt 3), line := .ofInt 3 },
        { name := "next", type := .named "Node" (.ofInt 4), line := .ofInt 4 }], .ofInt 2⟩),
    .createScope [0] [] [], .createScope [1] [] [("inc", 1)]]

/-- The home of the first struct. -/
def innerNode : Scope := { identity := 1, types := [("Node", 0)] }

/-- The home of the second struct. -/
def outerNode : Scope :=
  { identity := 2, types := [("Node", 1)], includes := [("inc", innerNode)] }

theorem scopes_twoNodes : (run twoNodes).scopes = [Scope.empty, innerNode, outerNode] := rfl

theorem registers_twoNodes (member : scope ∈ (run twoNodes).scopes)
    (registers : scope.Registers id) :
    scope = innerNode ∧ id = 0 ∨ scope = outerNode ∧ id = 1 := by
  rcases registers with ⟨kind, name, found⟩
  have entry := Record.mem_of_get? found
  rw [scopes_twoNodes] at member
  simp only [List.mem_cons, List.not_mem_nil, or_false] at member
  rcases member with rfl | rfl | rfl
  · cases kind <;> cases entry
  · cases kind with
    | type => simp_all [Scope.table, innerNode]
    | service => cases entry
  · cases kind with
    | type => simp_all [Scope.table, outerNode]
    | service => cases entry

theorem not_holds_twoNodes (holder id : ObjectId) : ¬ (run twoNodes).graph.Holds holder id := by
  rintro ⟨position, held⟩
  match holder, position with
  | 0, _ => cases held
  | 1, 0 => cases held
  | 1, 1 => cases held
  | 1, _ + 2 => cases held
  | _ + 2, _ => cases held

theorem inHomes_twoNodes {calls : List (LinkCall × Nat)}
    (paired : ∀ call ∈ calls, ∀ id, call.1.object? = some id → call.2 = id + 1) :
    (run twoNodes).InHomes calls := by
  intro call member scope held home homeMember root registers id asked reaches
  have same : root = id := by
    rcases Relation.ReflTransGen.cases_head reaches with same | ⟨child, holds, _⟩
    · exact same
    · exact absurd holds (not_holds_twoNodes root child)
  rw [paired call member id asked, scopes_twoNodes, ← same] at held
  rcases registers_twoNodes homeMember registers with ⟨rfl, rfl⟩ | ⟨rfl, rfl⟩
  · exact (Option.some.inj held).symm
  · exact (Option.some.inj held).symm

theorem slots_bound_twoNodes :
    BoundByHome (run twoNodes) ((run twoNodes).link [(.type (.object 1), 2)]) ∧
      ∀ position, ((run twoNodes).link [(.type (.object 1), 2)]).graph.slot? 1 position =
        ((run twoNodes).link
          [(.fields 1 .fields, 2), (.type (.object 0), 1), (.service 1, 2),
            (.type (.object 1), 2)]).graph.slot? 1 position := by
  have exclusive : (run twoNodes).Exclusive := by
    intro first firstMember second secondMember id left right
    rcases registers_twoNodes firstMember left with ⟨rfl, rfl⟩ | ⟨rfl, rfl⟩ <;>
      rcases registers_twoNodes secondMember right with ⟨rfl, same⟩ | ⟨rfl, same⟩ <;>
        first | rfl | cases same
  have bound := slots_bound_by_home twoNodes (by decide) exclusive [(.type (.object 1), 2)]
    [(.fields 1 .fields, 2), (.type (.object 0), 1), (.service 1, 2), (.type (.object 1), 2)]
    (inHomes_twoNodes (by simp [LinkCall.object?])) (inHomes_twoNodes (by simp [LinkCall.object?]))
  refine ⟨bound.1, fun position => ?_⟩
  exact bound.2 outerNode (by simp [scopes_twoNodes]) 1 ⟨.type, "Node", rfl⟩ 1
    Relation.ReflTransGen.refl (by decide) (by decide) 1 Relation.ReflTransGen.refl position

end Session

end IdlLinker
