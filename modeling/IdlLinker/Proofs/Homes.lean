import IdlLinker.Proofs.Closed
import IdlLinker.Proofs.Record
import IdlLinker.Proofs.Resolved

/-!
# Homes

Where every object is registered in at most one scope, the scope that registers
its owner is its home.  A scope is larger than those it includes, so a reference
leads to an object of the same home or of a smaller one.  When the latter has
been walked without an error, no unfinished object is reached from it, and it
is resolved.  So an object that stands where a reference stood either has the
home of its holder or has nothing left to resolve, and the scope it is walked in
from then on does not matter.
-/

namespace IdlLinker

namespace Scope

theorem sizeOf_lt_of_included {scope inner : Scope} {name : String}
    (found : Record.get? scope.includes name = some inner) : sizeOf inner < sizeOf scope := by
  have entry := List.sizeOf_lt_of_mem (Record.mem_of_get? found)
  rw [Prod.mk.sizeOf_spec] at entry
  cases scope with
  | mk identity types services includes =>
      rw [Scope.mk.sizeOf_spec]
      dsimp only at entry
      omega

/-- A name resolves to an object that the scope itself registers, or that a
smaller one does. -/
theorem resolve_registers {scope home : Scope} {kind : EntityKind} {name : String}
    {id : ObjectId} (resolved : scope.resolve kind name = some (id, home)) :
    home.Registers id ∧ (home = scope ∨ sizeOf home < sizeOf scope) := by
  unfold resolve at resolved
  generalize Name.segments name.toList = segments at resolved
  induction segments generalizing scope with
  | nil => cases resolved
  | cons first rest hypothesis =>
      simp only [resolveSegments] at resolved
      split at resolved
      · next own found =>
          cases resolved
          exact ⟨⟨kind, _, found⟩, Or.inl rfl⟩
      · split at resolved
        · cases resolved
        · split at resolved
          · next inner found =>
              rcases hypothesis resolved with ⟨registers, same | smaller⟩
              · subst same
                exact ⟨registers, Or.inr (sizeOf_lt_of_included found)⟩
              · exact ⟨registers, Or.inr (Nat.lt_trans smaller (sizeOf_lt_of_included found))⟩
          · cases resolved

end Scope

/-- A scope of a family registers the owner of an object. -/
def Home (family : Scope → Prop) (owner : ObjectId → ObjectId) (scope : Scope)
    (id : ObjectId) : Prop :=
  family scope ∧ scope.Registers (owner id)

/-- Objects that hold one another have one owner, registered objects own
themselves, and no object is registered twice. -/
structure Homes (family : Scope → Prop) (owner : ObjectId → ObjectId) (fresh : Graph) : Prop where
  holds : ∀ holder id, fresh.Holds holder id → owner id = owner holder
  owned : ∀ scope, family scope → ∀ id, scope.Registers id → owner id = id
  unique : ∀ first second, family first → family second → ∀ id, first.Registers id →
    second.Registers id → first = second

/-- An object can be walked in a scope: if it has a home, that is the scope, and
then all unfinished objects have homes at least as large, and otherwise none of
them has a home. -/
structure Homed (family : Scope → Prop) (owner : ObjectId → ObjectId) (scope : Scope)
    (unfinished : ObjectId → Prop) (id : ObjectId) : Prop where
  home : ∀ other, Home family owner other id → other = scope
  above : ∀ other, unfinished other → ∀ outer, Home family owner outer other →
    Home family owner scope id ∧ sizeOf scope ≤ sizeOf outer

/-- An object stands where a reference stood: it is what the name resolves to
in the home of the holder, and has that home itself or nothing to resolve. -/
structure Binding (family : Scope → Prop) (owner : ObjectId → ObjectId) (fresh graph : Graph)
    (id : ObjectId) (position : Nat) (reference : Reference) (target : ObjectId) : Prop where
  written : fresh.slot? id position = some (.unresolved reference)
  held : graph.slot? id position = some (.object target)
  resolves : ∀ scope, Home family owner scope id →
    ∃ home, scope.resolve reference.kind reference.name = some (target, home)
  safe : graph.ResolvedFrom target ∨
    ∃ scope, Home family owner scope id ∧ Home family owner scope target

/-- Every position is as it was or is bound. -/
def Bound (family : Scope → Prop) (owner : ObjectId → ObjectId) (fresh graph : Graph) : Prop :=
  ∀ id position, graph.slot? id position = fresh.slot? id position ∨
    ∃ reference target, Binding family owner fresh graph id position reference target

variable {family : Scope → Prop} {owner : ObjectId → ObjectId} {fresh graph between : Graph}
  {scope home : Scope} {unfinished : ObjectId → Prop} {id next : ObjectId} {position : Nat}

namespace Homes

theorem home_unique (homes : Homes family owner fresh) {first second : Scope}
    (left : Home family owner first id) (right : Home family owner second id) : first = second :=
  homes.unique first second left.1 right.1 (owner id) left.2 right.2

theorem home_of_holds (homes : Homes family owner fresh) (holds : fresh.Holds id next) :
    Home family owner scope next ↔ Home family owner scope id := by
  rw [Home, Home, homes.holds id next holds]

/-- What a name resolves to has the home that the name resolves in. -/
theorem home_of_resolve (homes : Homes family owner fresh) (sound : SoundScopes graph family)
    (member : family scope) {kind : EntityKind} {name : String}
    (resolved : scope.resolve kind name = some (id, home)) : Home family owner home id := by
  have within := (sound.resolve member resolved).2
  have registers := (Scope.resolve_registers resolved).1
  refine ⟨within, ?_⟩
  rwa [homes.owned home within id registers]

end Homes

namespace Homed

theorem mark (homed : Homed family owner scope unfinished id) :
    Homed family owner scope (fun other => other = id ∨ unfinished other) id where
  home := homed.home
  above other member outer outerHome := by
    rcases member with rfl | old
    · have same := homed.home outer outerHome
      subst same
      exact ⟨outerHome, Nat.le_refl _⟩
    · exact homed.above other old outer outerHome

/-- What has the same home can be walked in its place. -/
theorem of_home (homed : Homed family owner scope unfinished id)
    (same : ∀ other, Home family owner other next ↔ Home family owner other id) :
    Homed family owner scope unfinished next where
  home other otherHome := homed.home other ((same other).mp otherHome)
  above other member outer outerHome := by
    rcases homed.above other member outer outerHome with ⟨here, le⟩
    exact ⟨(same scope).mpr here, le⟩

end Homed

namespace Bound

theorem refl (family : Scope → Prop) (owner : ObjectId → ObjectId) (fresh : Graph) :
    Bound family owner fresh fresh :=
  fun _ _ => Or.inl rfl

/-- A position that holds a reference is as it was. -/
theorem written_of_unresolved (bound : Bound family owner fresh graph) {reference : Reference}
    (held : graph.slot? id position = some (.unresolved reference)) :
    fresh.slot? id position = some (.unresolved reference) := by
  rcases bound id position with same | ⟨_, _, binding⟩
  · rwa [← same]
  · rw [binding.held] at held
    cases held

/-- What an object holds has its home, or nothing to resolve. -/
theorem safe_of_holds (bound : Bound family owner fresh graph) (homes : Homes family owner fresh)
    (held : graph.slot? id position = some (.object next)) :
    graph.ResolvedFrom next ∨
      ∀ scope, Home family owner scope next ↔ Home family owner scope id := by
  rcases bound id position with same | ⟨reference, target, binding⟩
  · right
    intro scope
    exact homes.home_of_holds ⟨position, same ▸ held⟩
  · rw [binding.held] at held
    cases held
    rcases binding.safe with resolved | ⟨common, holder, target⟩
    · exact Or.inl resolved
    · right
      intro scope
      constructor
      · intro other
        rwa [homes.home_unique other target]
      · intro other
        rwa [homes.home_unique other holder]

theorem congr (bound : Bound family owner fresh graph) (same : between.objects = graph.objects) :
    Bound family owner fresh between := by
  intro id position
  rw [Graph.slot?_eq_of_objects same]
  rcases bound id position with old | ⟨reference, target, binding⟩
  · exact Or.inl old
  · refine Or.inr ⟨reference, target, binding.written, ?_, binding.resolves, ?_⟩
    · rw [Graph.slot?_eq_of_objects same]
      exact binding.held
    · exact binding.safe.imp_left fun resolved => resolved.congr same

/-- Storing what a reference resolves to in the home of its holder. -/
theorem store (bound : Bound family owner fresh graph) {reference : Reference}
    (written : fresh.slot? id position = some (.unresolved reference))
    (resolves : ∀ scope, Home family owner scope id →
      ∃ home, scope.resolve reference.kind reference.name = some (next, home))
    (safe : graph.ResolvedFrom next ∨
      ∃ scope, Home family owner scope id ∧ Home family owner scope next) :
    Bound family owner fresh (graph.setSlot id position (.object next)) := by
  have stays (target : ObjectId) (resolved : graph.ResolvedFrom target) :
      (graph.setSlot id position (.object next)).ResolvedFrom target := by
    rcases safe with stored | ⟨scope, holder, _⟩
    · exact resolved.setSlot stored
    · apply resolved.of_advances
      intro other index
      by_cases here : other = id ∧ index = position
      · rcases here with ⟨rfl, rfl⟩
        rcases bound other index with same | ⟨old, before, binding⟩
        · rw [written] at same
          exact Or.inr ⟨reference, next, same, graph.slot?_setSlot_self same _⟩
        · have names := binding.written
          rw [written] at names
          cases names
          rcases binding.resolves scope holder with ⟨_, first⟩
          rcases resolves scope holder with ⟨_, second⟩
          rw [first] at second
          cases second
          exact Or.inl (by rw [graph.setSlot_eq_self binding.held])
      · exact Or.inl (graph.slot?_setSlot_of_ne here _)
  intro other index
  by_cases here : other = id ∧ index = position
  · rcases here with ⟨rfl, rfl⟩
    refine Or.inr ⟨reference, next, written, ?_, resolves, safe.imp_left (stays next)⟩
    rcases bound other index with same | ⟨_, _, binding⟩
    · exact graph.slot?_setSlot_self (same.trans written) _
    · exact graph.slot?_setSlot_self binding.held _
  · rw [graph.slot?_setSlot_of_ne here]
    rcases bound other index with same | ⟨old, target, binding⟩
    · exact Or.inl same
    · refine Or.inr ⟨old, target, binding.written, ?_, binding.resolves,
        binding.safe.imp_left (stays target)⟩
      rw [graph.slot?_setSlot_of_ne here]
      exact binding.held

/-- Where a position leads, linking can go on. -/
theorem onward (bound : Bound family owner fresh graph) (homes : Homes family owner fresh)
    (sound : SoundScopes graph family) (member : family scope)
    (homed : Homed family owner scope unfinished id)
    (leads : graph.leadsTo scope id position = .ok (some (next, home))) :
    graph.ResolvedFrom next ∨ Homed family owner home unfinished next := by
  rcases Graph.slot?_of_leadsTo_some leads with ⟨held, rfl⟩ | ⟨reference, held, resolved⟩
  · exact (bound.safe_of_holds homes held).imp_right homed.of_home
  · right
    have nextHome := homes.home_of_resolve sound member resolved
    have le : sizeOf home ≤ sizeOf scope := by
      rcases (Scope.resolve_registers resolved).2 with rfl | smaller
      · exact Nat.le_refl _
      · exact Nat.le_of_lt smaller
    constructor
    · exact fun other otherHome => homes.home_unique otherHome nextHome
    · intro other otherMember outer outerHome
      exact ⟨nextHome, Nat.le_trans le (homed.above other otherMember outer outerHome).2⟩

/-- When no unfinished object has a home as small, what is linked there is
resolved. -/
theorem resolvedFrom_of_linked (bound : Bound family owner fresh graph)
    (homes : Homes family owner fresh) (closed : graph.ClosedExcept unfinished)
    (marked : next ∈ graph.linked) (nextHome : Home family owner home next)
    (apart : ∀ other, unfinished other → ¬ Home family owner home other) :
    graph.ResolvedFrom next := by
  have reached (other : ObjectId) (reaches : graph.Reaches next other) :
      graph.ResolvedFrom other ∨ other ∈ graph.linked ∧ Home family owner home other := by
    induction reaches with
    | refl => exact Or.inr ⟨marked, nextHome⟩
    | @tail holder child _ holds hypothesis =>
        rcases hypothesis with resolved | ⟨holderMarked, holderHome⟩
        · exact Or.inl (resolved.of_holds holds)
        · rcases holds with ⟨position, held⟩
          have finished : ¬ unfinished holder := fun open_ => apart holder open_ holderHome
          have linked := closed holder holderMarked finished position _ held
          rcases bound.safe_of_holds homes held with resolved | same
          · exact Or.inl resolved
          · exact Or.inr ⟨by simpa using linked, (same home).mpr holderHome⟩
  intro other reaches position reference held
  rcases reached other reaches with resolved | ⟨otherMarked, otherHome⟩
  · exact resolved.slot?_ne position reference held
  · have finished : ¬ unfinished other := fun open_ => apart other open_ otherHome
    cases closed other otherMarked finished position _ held

/-- What a position leads to is stored there once it is linked. -/
theorem stored (bound : Bound family owner fresh graph) (homes : Homes family owner fresh)
    (sound : SoundScopes graph family) (member : family scope)
    (homed : Homed family owner scope unfinished id)
    (leads : graph.leadsTo scope id position = .ok (some (next, home)))
    (advances : Advances (graph.slot? id position) (between.slot? id position))
    (entered : Bound family owner fresh between) (closed : between.ClosedExcept unfinished)
    (marked : next ∈ between.linked) :
    Bound family owner fresh (between.setSlot id position (.object next)) := by
  rcases Graph.slot?_of_leadsTo_some leads with ⟨held, rfl⟩ | ⟨reference, held, resolved⟩
  · rw [held] at advances
    rwa [between.setSlot_eq_self advances.eq_of_object]
  · have nextHome := homes.home_of_resolve sound member resolved
    apply entered.store (bound.written_of_unresolved held)
    · intro other otherHome
      rw [homed.home other otherHome]
      exact ⟨home, resolved⟩
    · by_cases shared : Home family owner scope id ∧ home = scope
      · rcases shared with ⟨holder, rfl⟩
        exact Or.inr ⟨home, holder, nextHome⟩
      · left
        apply entered.resolvedFrom_of_linked homes closed marked nextHome
        intro other open_ otherHome
        rcases homed.above other open_ home otherHome with ⟨holder, le⟩
        rcases (Scope.resolve_registers resolved).2 with same | smaller
        · exact shared ⟨holder, same⟩
        · exact absurd le (Nat.not_le.mpr smaller)

end Bound

/-- What a task asks for: an entered object has nothing to resolve or can be
walked in the scope, and an object whose positions are settled is unfinished and
can be walked in the scope. -/
def Task.Homed (family : Scope → Prop) (owner : ObjectId → ObjectId) (scope : Scope)
    (unfinished : ObjectId → Prop) (graph : Graph) : Task → Prop
  | enter id => graph.ResolvedFrom id ∨ IdlLinker.Homed family owner scope unfinished id
  | settle id _ _ => unfinished id ∧ IdlLinker.Homed family owner scope unfinished id

/-- Every walk that begins in the home of its object keeps positions bound,
also when it fails. -/
theorem Visit.bound {task : Task} {before after : Graph} {outcome : Except CompileError Unit}
    (visit : Visit scope task before after outcome) (homes : Homes family owner fresh)
    (ready : Ready family scope before) (bound : Bound family owner fresh before)
    (closed : before.ClosedExcept unfinished)
    (homed : task.Homed family owner scope unfinished before) :
    Bound family owner fresh after := by
  induction visit generalizing unfinished with
  | rest marked => exact bound
  | @body scope id graph after outcome spec unmarked object walk settled =>
      rcases homed with resolved | homed
      · have whole := Visit.body unmarked object walk
        exact bound.congr (whole.objects_eq_of_resolved resolved).2
      · exact settled (ready.mark id) (bound.congr rfl) (closed.mark id) ⟨Or.inl rfl, homed.mark⟩
  | done => exact bound
  | skip nowhere _ settled => exact settled ready bound closed homed
  | @follow scope home id next owner graph between after position others outcome leads
      entry _ entered settled =>
      rcases homed with ⟨open_, homed⟩
      have onward := ready.onward leads
      have boundBetween := entered onward bound closed
        (bound.onward homes ready.sound ready.member homed leads)
      rcases entry.closes onward rfl _ closed (ready.present leads) with ⟨closedBetween, marked⟩
      apply settled (ready.resume leads entry.sameShapes (entry.wellTyped onward)) _
        (closedBetween.setSlot open_ position _) ⟨open_, homed⟩
      exact bound.stored homes ready.sound ready.member homed leads
        (entry.advances id position) boundBetween closedBetween marked
  | stuck unresolved => exact bound
  | fail leads _ entered =>
      exact entered (ready.onward leads) bound closed
        (bound.onward homes ready.sound ready.member homed.2 leads)

end IdlLinker
