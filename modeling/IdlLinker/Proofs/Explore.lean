import IdlLinker.Graph.Explore
import IdlLinker.Proofs.Retrace

/-!
# Explorations and visits

An exploration comes to an end from any stretch and with any objects entered
before.  What it finds does not resolve, and the way to it is one that leads
from where it began.  A visit of the same graph goes along with it up to the
first loose end: without one both enter the same objects, and otherwise the
visit fails with the error of the first.
-/

namespace IdlLinker

namespace CompileError

/-- The names that an error was wrapped in, outermost first. -/
def owners : CompileError → List String
  | wrapped _ owner cause => owner :: cause.owners
  | _ => []

@[simp]
theorem root_foldr_wrapped (phase : Phase) (names : List String) (error : CompileError) :
    (names.foldr (wrapped phase) error).root = error.root := by
  induction names with
  | nil => rfl
  | cons name rest hypothesis => exact hypothesis

theorem owners_foldr_wrapped (phase : Phase) (names : List String) (error : CompileError) :
    (names.foldr (wrapped phase) error).owners = names ++ error.owners := by
  induction names with
  | nil => rfl
  | cons name rest hypothesis => exact congrArg (name :: ·) hypothesis

end CompileError

namespace LooseEnd

variable (graph : Graph) (loose : LooseEnd)

/-- The error of a loose end started with its reference. -/
theorem root_error : (loose.error graph).root =
    .unresolvedReference loose.reference.name loose.reference.line :=
  CompileError.root_foldr_wrapped _ _ _

/-- The error of a loose end is wrapped in the names on the way to it. -/
theorem owners_error : (loose.error graph).owners = loose.owners graph := by
  rw [error, CompileError.owners_foldr_wrapped]
  exact List.append_nil _

/-- Seen from an object further out, the error is under the name that answers
there. -/
theorem error_under (id : ObjectId) (position : Nat) :
    (loose.under id position).error graph =
      Graph.ownError ((graph.object? id).bind (·.ownerAt position)) (loose.error graph) := by
  simp only [error, owners, under, List.filterMap_cons]
  cases (graph.object? id).bind (·.ownerAt position) <;> rfl

end LooseEnd

/-- The slot that a stretch is part of. -/
def Stretch.start : Stretch → Slot
  | slot held => held
  | positions id _ => .object id

namespace Graph

variable {graph : Graph} {scope home : Scope} {stretch : Stretch} {slot : Slot} {id next : ObjectId}
  {entered after : List ObjectId} {found : List LooseEnd}

namespace Explores

/-- An exploration does not forget what was entered. -/
theorem subset (explores : graph.Explores scope stretch entered found after) :
    entered ⊆ after := by
  induction explores with
  | primitive | loose _ | known _ | done => exact List.Subset.refl _
  | reference _ _ explored => exact explored
  | object _ _ _ explored => exact List.Subset.trans (List.subset_cons_self _ _) explored
  | next _ _ _ first rest => exact List.Subset.trans first rest

/-- What an exploration finds does not resolve, and is where its path leads. -/
theorem refers (explores : graph.Explores scope stretch entered found after) :
    ∀ loose ∈ found, ∃ home, graph.Refers scope stretch.start loose.path home loose.reference ∧
      home.resolve loose.reference.kind loose.reference.name = none := by
  induction explores with
  | primitive | known _ | done => simp
  | loose unresolved =>
      intro loose member
      obtain rfl := List.mem_singleton.mp member
      exact ⟨_, .here, unresolved⟩
  | reference resolves _ explored =>
      intro loose member
      rcases explored loose member with ⟨home, refers, unresolved⟩
      exact ⟨home, .through resolves refers, unresolved⟩
  | object _ _ _ explored => exact explored
  | next held _ _ first rest =>
      intro loose member
      rcases List.mem_append.mp member with here | later
      · rcases List.mem_map.mp here with ⟨inner, innerMember, rfl⟩
        rcases first inner innerMember with ⟨home, refers, unresolved⟩
        exact ⟨home, .under held refers, unresolved⟩
      · exact rest loose later

/-- Where everything resolves, nothing is found. -/
theorem eq_nil_of_allResolve (explores : graph.Explores scope (.slot slot) entered found after)
    (resolve : graph.AllResolve scope slot) : found = [] := by
  apply List.eq_nil_iff_forall_not_mem.mpr
  intro loose member
  rcases explores.refers loose member with ⟨home, refers, unresolved⟩
  have resolved := resolve loose.path home loose.reference refers
  rw [unresolved] at resolved
  cases resolved

/-- A slot that leads nowhere has nothing to explore. -/
theorem of_target_none (explores : graph.Explores scope (.slot slot) entered found after)
    (leads : target scope slot = .ok none) : found = [] ∧ after = entered := by
  cases explores with
  | primitive => exact ⟨rfl, rfl⟩
  | loose unresolved => simp [target, unresolved] at leads
  | reference resolves _ => simp [target, resolves] at leads
  | known _ => cases leads
  | object _ _ _ => cases leads

/-- A slot that leads to an object is explored as that object. -/
theorem of_target_some (explores : graph.Explores scope (.slot slot) entered found after)
    (leads : target scope slot = .ok (some (next, home))) :
    graph.Explores home (.slot (.object next)) entered found after := by
  cases explores with
  | primitive => cases leads
  | loose unresolved => simp [target, unresolved] at leads
  | reference resolves explored =>
      simp only [target, resolves, Except.ok.injEq, Option.some.injEq, Prod.mk.injEq] at leads
      rwa [← leads.1, ← leads.2]
  | known known =>
      cases leads
      exact .known known
  | object new object explored =>
      cases leads
      exact .object new object explored

/-- A slot that leads to an error is a loose end, and its error is that. -/
theorem of_target_error {error : CompileError}
    (explores : graph.Explores scope (.slot slot) entered found after)
    (leads : target scope slot = .error error) :
    ∃ loose, found = [loose] ∧ error = loose.error graph := by
  cases explores with
  | primitive => cases leads
  | @loose _ reference _ unresolved =>
      simp only [target, unresolved, Except.error.injEq] at leads
      exact ⟨⟨[], reference⟩, rfl, leads.symm⟩
  | reference resolves _ => simp [target, resolves] at leads
  | known _ => cases leads
  | object _ _ _ => cases leads

/-- Positions are explored one by one, each where it leads. -/
theorem exists_next {position : Nat} {others : List Nat}
    (explores : graph.Explores scope (.positions id (position :: others)) entered found after) :
    ∃ slot here between later, graph.leadsTo scope id position = target scope slot ∧
      graph.Explores scope (.slot slot) entered here between ∧
      graph.Explores scope (.positions id others) between later after ∧
      found = here.map (·.under id position) ++ later := by
  cases explores with
  | next held first rest => exact ⟨_, _, _, _, by rw [leadsTo, held], first, rest, rfl⟩

end Explores

/-! ## Explorations end -/

/-- How many objects are not entered yet. -/
def remaining (graph : Graph) (entered : List ObjectId) : Nat :=
  ({ graph with linked := entered } : Graph).unlinked.card

theorem remaining_le (subset : entered ⊆ after) : graph.remaining after ≤ graph.remaining entered :=
  unlinked_card_le rfl subset

theorem remaining_cons_lt {spec : Spec Slot} (object : graph.object? id = some spec)
    (new : id ∉ entered) : graph.remaining (id :: entered) < graph.remaining entered := by
  have same : ({ graph with linked := entered } : Graph).object? id = some spec := object
  exact unlinked_markPending_lt same new

/-- With few enough objects left, every object can be explored. -/
def ExploresBelow (graph : Graph) (bound : Nat) : Prop :=
  ∀ scope id entered, graph.remaining entered < bound →
    ∃ found after, graph.Explores scope (.slot (.object id)) entered found after

variable {bound : Nat}

theorem ExploresBelow.explores_slot (below : graph.ExploresBelow bound) (scope : Scope)
    (slot : Slot)
    (enough : graph.remaining entered < bound) :
    ∃ found after, graph.Explores scope (.slot slot) entered found after := by
  cases slot with
  | primitive type => exact ⟨_, _, .primitive⟩
  | object id => exact below scope id entered enough
  | unresolved reference =>
      cases resolves : scope.resolve reference.kind reference.name with
      | none => exact ⟨_, _, .loose resolves⟩
      | some found =>
          obtain ⟨id, home⟩ := found
          rcases below home id entered enough with ⟨found, after, explores⟩
          exact ⟨found, after, .reference resolves explores⟩

theorem ExploresBelow.explores_positions (below : graph.ExploresBelow bound) (scope : Scope)
    (id : ObjectId) (positions : List Nat)
    (held : ∀ position ∈ positions, (graph.slot? id position).isSome)
    (enough : graph.remaining entered < bound) :
    ∃ found after, graph.Explores scope (.positions id positions) entered found after := by
  induction positions generalizing entered with
  | nil => exact ⟨_, _, .done⟩
  | cons position others hypothesis =>
      rcases Option.isSome_iff_exists.mp (held position List.mem_cons_self) with ⟨slot, here⟩
      rcases below.explores_slot scope slot enough with ⟨_, between, first⟩
      have still := Nat.lt_of_le_of_lt (remaining_le first.subset) enough
      rcases hypothesis (fun other member => held other (List.mem_cons_of_mem _ member)) still with
        ⟨_, after, rest⟩
      exact ⟨_, after, .next here first rest⟩

theorem isSome_slot?_of_lt {spec : Spec Slot} (object : graph.object? id = some spec)
    {position : Nat} (lt : position < spec.slots.length) : (graph.slot? id position).isSome := by
  rw [slot?, object, Option.bind_some, List.getElem?_eq_getElem lt]
  rfl

theorem exploresBelow (graph : Graph) (bound : Nat) : graph.ExploresBelow bound := by
  induction bound with
  | zero => exact fun _ _ _ impossible => absurd impossible (Nat.not_lt_zero _)
  | succ bound hypothesis =>
      intro scope id entered enough
      by_cases old : id ∈ entered
      · exact ⟨_, _, .known (Or.inl old)⟩
      · cases object : graph.object? id with
        | none => exact ⟨_, _, .known (Or.inr object)⟩
        | some spec =>
            have smaller := Nat.lt_of_lt_of_le (remaining_cons_lt object old)
              (Nat.le_of_lt_succ enough)
            rcases hypothesis.explores_positions scope id (List.range spec.slots.length)
              (fun position member => isSome_slot?_of_lt object (List.mem_range.mp member))
              smaller with ⟨found, after, explores⟩
            exact ⟨found, after, .object old object explores⟩

/-- A slot can be explored in any graph, in any scope and whatever was entered
before. -/
theorem exists_explores (graph : Graph) (scope : Scope) (slot : Slot) (entered : List ObjectId) :
    ∃ found after, graph.Explores scope (.slot slot) entered found after :=
  (graph.exploresBelow _).explores_slot scope slot (Nat.lt_succ_self (graph.remaining entered))

end Graph

/-! ## Visits stop at the first loose end -/

/-- What a task is about, as a stretch to explore. -/
def Task.stretch : Task → Stretch
  | enter id => .slot (.object id)
  | settle id _ positions => .positions id positions

/-- Positions still to be settled are as they are in a graph, and its names
answer for them. -/
def Task.AsIn (fresh graph : Graph) : Task → Prop
  | enter _ => True
  | settle id owner positions => id ∈ graph.linked ∧ positions.Nodup ∧
      (∀ position ∈ positions, graph.slot? id position = fresh.slot? id position) ∧
      ∃ spec, fresh.object? id = some spec ∧ owner = spec.ownerAt

/-- Objects that are not marked are as they are in another graph. -/
def Graph.UnmarkedAsIn (fresh graph : Graph) : Prop :=
  ∀ id, id ∉ graph.linked → graph.object? id = fresh.object? id

namespace Task.AsIn

variable {fresh graph between : Graph} {home : Scope} {id next : ObjectId}
  {owner : Nat → Option String} {position : Nat} {others : List Nat}

theorem leadsTo_eq (asIn : (Task.settle id owner (position :: others)).AsIn fresh graph)
    (scope : Scope) : graph.leadsTo scope id position = fresh.leadsTo scope id position :=
  Graph.leadsTo_eq_of_slot? (asIn.2.2.1 position List.mem_cons_self) scope

theorem tail (asIn : (Task.settle id owner (position :: others)).AsIn fresh graph) :
    (Task.settle id owner others).AsIn fresh graph :=
  ⟨asIn.1, (List.nodup_cons.mp asIn.2.1).2,
    fun other member => asIn.2.2.1 other (List.mem_cons_of_mem _ member), asIn.2.2.2⟩

/-- A visit from one position and what is stored there leave the others. -/
theorem resume (asIn : (Task.settle id owner (position :: others)).AsIn fresh graph)
    (entry : Visit home (.enter next) graph between (.ok ()))
    (kept : fresh.UnmarkedAsIn between) :
    fresh.UnmarkedAsIn (between.setSlot id position (.object next)) ∧
      (Task.settle id owner others).AsIn fresh (between.setSlot id position (.object next)) := by
  rcases asIn with ⟨marked, distinct, same, owned⟩
  rcases List.nodup_cons.mp distinct with ⟨absent, distinctOthers⟩
  have still := entry.linked_subset marked
  have untouched := entry.object?_eq marked (by simp [Task.holder?])
  refine ⟨fun other new => ?_, still, distinctOthers, fun index member => ?_, owned⟩
  · have different : other ≠ id := fun equal => new (equal ▸ still)
    rw [between.object?_setSlot_of_ne different]
    exact kept other new
  · have different : index ≠ position := fun equal => absent (equal ▸ member)
    rw [between.slot?_setSlot_of_ne fun here => different here.2,
      Graph.slot?_eq_of_object? untouched]
    exact same index (List.mem_cons_of_mem _ member)

/-- An error of a position is that of the loose end seen from its object. -/
theorem ownError_eq (asIn : (Task.settle id owner (position :: others)).AsIn fresh graph)
    (loose : LooseEnd) : Graph.ownError (owner position) (loose.error fresh) =
      (loose.under id position).error fresh := by
  rcases asIn with ⟨_, _, _, spec, object, rfl⟩
  rw [LooseEnd.error_under, object]
  rfl

end Task.AsIn

/-- A visit that ends well enters what an exploration enters, which finds
nothing, and otherwise it ends in the error of the first loose end. -/
theorem Visit.stops_at_first {fresh before after : Graph} {scope : Scope} {task : Task}
    {outcome : Except CompileError Unit} (visit : Visit scope task before after outcome)
    (unmarked : fresh.UnmarkedAsIn before) (asIn : task.AsIn fresh before)
    {found : List LooseEnd} {reached : List ObjectId}
    (explores : fresh.Explores scope task.stretch before.linked found reached) :
    (outcome = .ok () ∧ found = [] ∧ reached = after.linked ∧ fresh.UnmarkedAsIn after) ∨
      ∃ first others, found = first :: others ∧ outcome = .error (first.error fresh) := by
  -- an object is marked before its positions are settled, and no other visit
  -- touches it, so each position is met as it stands in the fresh graph
  induction visit generalizing found reached with
  | @rest scope id graph marked =>
      cases explores with
      | known _ => exact Or.inl ⟨rfl, rfl, rfl, unmarked⟩
      | object new object _ =>
          rcases marked with marked | absent
          · exact absurd marked new
          · rw [← unmarked id new, absent] at object
            cases object
  | @body scope id graph after outcome spec new object walk settled =>
      cases explores with
      | known known =>
          rcases known with marked | absent
          · exact absurd marked new
          · rw [← unmarked id new, object] at absent
            cases absent
      | object _ freshObject explored =>
          have same := unmarked id new
          rw [object, freshObject] at same
          cases same
          apply settled _ _ explored
          · intro other otherNew
            exact unmarked other fun old => otherNew (List.mem_cons_of_mem _ old)
          · refine ⟨List.mem_cons_self, List.nodup_range, fun position _ => ?_, spec, freshObject,
              rfl⟩
            rw [Graph.slot?_mark, Graph.slot?, Graph.slot?, object, freshObject]
  | done =>
      cases explores with
      | done => exact Or.inl ⟨rfl, rfl, rfl, unmarked⟩
  | skip nowhere _ settled =>
      rcases explores.exists_next with ⟨slot, here, between, later, leads, first, rest, rfl⟩
      rw [asIn.leadsTo_eq, leads] at nowhere
      rcases first.of_target_none nowhere with ⟨rfl, rfl⟩
      exact settled unmarked asIn.tail rest
  | follow onward entry _ entered settled =>
      rcases explores.exists_next with ⟨slot, here, _, later, leads, first, rest, rfl⟩
      rw [asIn.leadsTo_eq, leads] at onward
      rcases entered unmarked trivial (first.of_target_some onward) with
        ⟨_, rfl, rfl, kept⟩ | ⟨_, _, _, impossible⟩
      · rcases asIn.resume entry kept with ⟨unmarkedNow, asInNow⟩
        exact settled unmarkedNow asInNow rest
      · cases impossible
  | stuck unresolved =>
      rcases explores.exists_next with ⟨slot, here, between, later, leads, first, rest, rfl⟩
      rw [asIn.leadsTo_eq, leads] at unresolved
      rcases first.of_target_error unresolved with ⟨loose, rfl, rfl⟩
      exact Or.inr ⟨_, later, rfl, congrArg Except.error (asIn.ownError_eq loose)⟩
  | fail onward _ entered =>
      rcases explores.exists_next with ⟨slot, here, between, later, leads, first, rest, rfl⟩
      rw [asIn.leadsTo_eq, leads] at onward
      rcases entered unmarked trivial (first.of_target_some onward) with
        ⟨impossible, _⟩ | ⟨loose, others, rfl, ended⟩
      · cases impossible
      · cases ended
        exact Or.inr ⟨_, _, rfl, congrArg Except.error (asIn.ownError_eq loose)⟩

end IdlLinker
