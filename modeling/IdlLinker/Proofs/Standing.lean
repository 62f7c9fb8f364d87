import IdlLinker.Proofs.Progress
import IdlLinker.Proofs.Session

/-!
# Modules stay linked

A unit that becomes a module has all its objects linked, and no call takes a
mark back.  So what the scope of a module registers is linked from then on,
whatever is called later.
-/

namespace IdlLinker

namespace Module

open IdlLinker.Graph

variable {family : Scope → Prop} {scope : Scope} {graph : Graph}

theorem linkAll_of_ok {name : String} {kind : EntityKind} {id : ObjectId}
    (ended : (graph.linkObject scope id).outcome = .ok ())
    (rest : List (String × EntityKind × ObjectId)) :
    (linkAll scope ((name, kind, id) :: rest) graph).2 =
      (linkAll scope rest (graph.linkObject scope id).graph).2.after
        (graph.linkObject scope id).bodies := by
  simp only [linkAll, ended]

theorem linkAll_of_error {name : String} {kind : EntityKind} {id : ObjectId} {error : CompileError}
    (ended : (graph.linkObject scope id).outcome = .error error)
    (rest : List (String × EntityKind × ObjectId)) :
    (linkAll scope ((name, kind, id) :: rest) graph).2 =
      ⟨(graph.linkObject scope id).graph, .error error,
        (graph.linkObject scope id).bodies⟩ := by
  simp only [linkAll, ended]

/-- Linking objects takes no mark back. -/
theorem linked_linkAll (sound : graph.Sound family) (member : family scope)
    (order : List (String × EntityKind × ObjectId)) :
    graph.linked ⊆ (linkAll scope order graph).2.graph.linked := by
  induction order generalizing graph with
  | nil => exact List.Subset.refl _
  | cons entry rest hypothesis =>
      rcases entry with ⟨name, kind, id⟩
      have first := (progress_linkObject sound.idle scope id).linked
      cases ended : (graph.linkObject scope id).outcome with
      | ok done =>
          rw [linkAll_of_ok ended]
          exact List.Subset.trans first (hypothesis (sound.linkObject member id))
      | error error =>
          rw [linkAll_of_error ended]
          exact first

/-- Objects linked without an error are all marked. -/
theorem mem_linked_linkAll (sound : graph.Sound family) (member : family scope)
    {order : List (String × EntityKind × ObjectId)}
    (present : ∀ entry ∈ order, (graph.object? entry.2.2).isSome)
    (ended : (linkAll scope order graph).2.outcome = .ok ()) :
    ∀ entry ∈ order, entry.2.2 ∈ (linkAll scope order graph).2.graph.linked := by
  induction order generalizing graph with
  | nil =>
      intro entry entryMember
      cases entryMember
  | cons entry rest hypothesis =>
      rcases entry with ⟨name, kind, id⟩
      cases first : (graph.linkObject scope id).outcome with
      | error error =>
          rw [linkAll_of_error first] at ended
          cases ended
      | ok done =>
          rw [linkAll_of_ok first] at ended ⊢
          have linked := sound.linkObject member id
          have shapes := sameShapes_linkObject sound.idle scope id
          intro other otherMember
          rcases List.mem_cons.mp otherMember with rfl | later
          · apply linked_linkAll linked member rest
            exact sound.mem_linked member (present _ List.mem_cons_self) first
          · apply hypothesis linked _ ended other later
            intro another anotherMember
            have there := present another (List.mem_cons_of_mem _ anotherMember)
            rwa [← Option.isSome_map (f := Spec.shape), shapes, Option.isSome_map]

/-- The order of linking has everything that was installed. -/
theorem mem_linkOrder_iff {installed : List (String × EntityKind × ObjectId)}
    {entry : String × EntityKind × ObjectId} :
    entry ∈ linkOrder (ofKind .type installed) (ofKind .service installed) ↔
      entry ∈ installed := by
  rcases entry with ⟨name, kind, id⟩
  cases kind <;> simp [linkOrder, mem_ofKind_iff]

/-- The scope of a unit registers objects that were made for it. -/
theorem exists_entry_of_registers {workspace : Workspace}
    {units : List (String × CompiledDefinition)} {includes : Includes} {id : ObjectId}
    (registers : (unitScope workspace units includes).Registers id) :
    ∃ entry ∈ (install workspace.graph units).1, entry.2.2 = id := by
  rcases registers with ⟨kind, name, found⟩
  cases kind with
  | type =>
      rcases mem_ofKind (Scope.mem_tableOf found).1 with ⟨made, member⟩
      exact ⟨_, member, rfl⟩
  | service =>
      rcases mem_ofKind (Scope.mem_tableOf found).1 with ⟨made, member⟩
      exact ⟨_, member, rfl⟩

/-- Objects made for a unit are linked when it is linked without an error. -/
theorem mem_linked_unit {workspace : Workspace} {units : List (String × CompiledDefinition)}
    {includes : Includes}
    (sound : (install workspace.graph units).2.Sound family)
    (member : family (unitScope workspace units includes))
    (ended : (unitLinked workspace units includes).outcome = .ok ()) :
    ∀ entry ∈ (install workspace.graph units).1,
      entry.2.2 ∈ (unitLinked workspace units includes).graph.linked := by
  intro entry entryMember
  apply mem_linked_linkAll sound member _ ended entry (mem_linkOrder_iff.mpr entryMember)
  intro other otherMember
  exact isSome_of_fits
    (installAll_fits units workspace.graph other (mem_linkOrder_iff.mp otherMember))

end Module

namespace Session

/-- The scope of every module is one of the session's scopes, and registers
linked objects only. -/
structure Standing (session : Session) : Prop where
  known : ∀ module ∈ session.modules, module.scope ∈ session.scopes
  linked : ∀ module ∈ session.modules, ∀ id, module.scope.Registers id →
    id ∈ session.graph.linked

variable {session after : Session}

/-- Where no module is added and no mark taken back, modules stay linked. -/
theorem Standing.onward (standing : session.Standing) (modules : after.modules = session.modules)
    (scopes : session.scopes ⊆ after.scopes) (marks : session.graph.linked ⊆ after.graph.linked) :
    after.Standing where
  known module member := by
    rw [modules] at member
    exact scopes (standing.known module member)
  linked module member id registers := by
    rw [modules] at member
    exact marks (standing.linked module member id registers)

theorem Standing.createScope (standing : session.Standing) (types services : List ObjectId)
    (includes : Includes) : (session.createScope types services includes).Standing := by
  unfold Session.createScope
  split
  · exact standing.onward rfl (List.subset_append_left _ _) (List.Subset.refl _)
  · exact standing

/-- A unit leaves the marks that were there. -/
theorem Sound.linked_assemble (sound : session.Sound) (units : List (String × CompiledDefinition))
    {includes : Includes} (known : ∀ entry ∈ includes, entry.2 ∈ session.scopes) :
    session.graph.linked ⊆
      (Module.assemble session.workspace units includes).workspace.graph.linked := by
  have grows := Module.installAll_grows (fun _ => True) units session.graph 0 (Nat.zero_le _)
    (by simp)
  rw [← grows.linked]
  exact Module.linked_linkAll (sound.unit units known)
    (List.mem_append_right _ (List.mem_singleton_self _)) _

theorem Standing.compileModule (standing : session.Standing) (sound : session.Sound)
    (definitions : List Definition) {includes : Includes}
    (known : ∀ entry ∈ includes, entry.2 ∈ session.scopes) :
    (session.compileModule definitions includes).Standing := by
  unfold Session.compileModule
  rcases Module.compile_cases session.workspace definitions includes with
    ⟨journal, error, refused⟩ | ⟨units, journal, _, _, assembled⟩
  · rw [refused]
    exact standing
  · rw [assembled]
    have marks := sound.linked_assemble units known
    cases ended : (Module.assemble session.workspace units includes).outcome with
    | error error =>
        simp only [ended]
        exact standing.onward rfl (List.Subset.refl _) marks
    | ok module =>
        simp only [ended]
        rcases Module.assemble_eq_ok_iff.mp ended with ⟨linked, rfl⟩
        constructor
        · intro other member
          rcases List.mem_append.mp member with old | new
          · exact List.mem_append_left _ (standing.known other old)
          · rw [List.mem_singleton.mp new]
            exact List.mem_append_right _ (List.mem_singleton_self _)
        · intro other member id registers
          rcases List.mem_append.mp member with old | new
          · exact marks (standing.linked other old id registers)
          · rw [List.mem_singleton.mp new] at registers
            rcases Module.exists_entry_of_registers registers with ⟨entry, entryMember, rfl⟩
            exact Module.mem_linked_unit (sound.unit units known)
              (List.mem_append_right _ (List.mem_singleton_self _)) linked entry entryMember

/-- No call takes back that a module is linked. -/
theorem Standing.perform (standing : session.Standing) (sound : session.Sound) (call : Call) :
    (session.perform call).Standing := by
  have step := step_perform session call
  generalize session.perform call = after at step ⊢
  cases step with
  | idle => exact standing
  | grow grows =>
      exact standing.onward rfl (List.Subset.refl _) (grows.linked ▸ List.Subset.refl _)
  | scope known => exact standing.createScope _ _ _
  | unit known => exact standing.compileModule sound _ known
  | link member =>
      exact standing.onward rfl (List.Subset.refl _)
        (Graph.relinked_perform sound.idle _ _).linked

/-- After any sequence of calls, what modules register is linked. -/
theorem standing_run (calls : List Call) : (run calls).Standing := by
  have standing (session : Session) (sound : session.Sound) (start : session.Standing) :
      (calls.foldl perform session).Standing := by
    induction calls generalizing session with
    | nil => exact start
    | cons call rest hypothesis =>
        exact hypothesis _ (sound.perform call) (start.perform sound call)
  refine standing {} sound_initial ⟨?_, ?_⟩
  · intro module member
    cases member
  · intro module member
    cases member

end Session

end IdlLinker
