import IdlLinker.Proofs.Installed
import IdlLinker.Proofs.Record
import IdlLinker.Proofs.Sound

/-!
# Sound sessions

Compiling adds objects that are not linked, a scope registers types as types
and services as services, and linking keeps graphs sound.  So the graph of a
session is sound after every call, whatever the calls were.
-/

namespace IdlLinker

namespace Graph

variable {family : Scope → Prop} {base : Nat} {named : Reference → Prop} {graph grown : Graph}

theorem Grows.isSome_object? (grows : Grows base named graph grown) {id : ObjectId}
    (present : (graph.object? id).isSome) : (grown.object? id).isSome := by
  rcases Option.isSome_iff_exists.mp present with ⟨spec, object⟩
  rw [grows.kept id (Array.getElem?_eq_some_iff.mp object).1]
  exact present

theorem Grows.soundScopes (grows : Grows base named graph grown)
    (sound : SoundScopes graph family) : SoundScopes grown family where
  registered scope member kind name id found :=
    grows.fits (sound.registered scope member kind name id found)
  included := sound.included

/-- A sound graph stays sound when objects are added. -/
theorem Sound.grow (sound : graph.Sound family) (grows : Grows base named graph grown) :
    grown.Sound family where
  idle := grows.pending.trans sound.idle
  present id marked := by
    rw [grows.linked] at marked
    exact grows.isSome_object? (sound.present id marked)
  typed id spec position slot object held := by
    by_cases earlier : id < graph.objects.size
    · rw [grows.kept id earlier] at object
      exact grows.fits (sound.typed id spec position slot object held)
    · exact (grows.fresh id spec (Nat.le_of_not_lt earlier) object position slot held).1.fits
  scopes := grows.soundScopes sound.scopes
  closed id marked finished position slot held := by
    rw [grows.linked] at marked
    rcases Option.isSome_iff_exists.mp (sound.present id marked) with ⟨spec, object⟩
    rw [grows.slot?_eq (Array.getElem?_eq_some_iff.mp object).1] at held
    have marks : graph.linked ⊆ grown.linked := by
      rw [grows.linked]
      exact List.Subset.refl _
    exact isLinked_mono marks (sound.closed id marked finished position slot held)

/-- A family that includes no other scopes can be looked at alone. -/
theorem Sound.narrow (sound : graph.Sound family) {fewer : Scope → Prop}
    (within : ∀ scope, fewer scope → family scope)
    (included : ∀ scope, fewer scope → ∀ name inner,
      Record.get? scope.includes name = some inner → fewer inner) : graph.Sound fewer where
  idle := sound.idle
  present := sound.present
  typed := sound.typed
  scopes :=
    ⟨fun scope member => sound.scopes.registered scope (within scope member), included⟩
  closed := sound.closed

/-- One more scope, with entries that fit and inclusions of the family. -/
theorem Sound.addScope {scopes : List Scope} (sound : graph.Sound (· ∈ scopes)) {scope : Scope}
    (registered : ∀ kind name id, Record.get? (scope.table kind) name = some id →
      graph.fits kind.role (.object id) = true)
    (included : ∀ name inner, Record.get? scope.includes name = some inner → inner ∈ scopes) :
    graph.Sound (· ∈ scopes ++ [scope]) where
  idle := sound.idle
  present := sound.present
  typed := sound.typed
  scopes := by
    constructor
    · intro other member kind name id found
      rcases List.mem_append.mp member with old | new
      · exact sound.scopes.registered other old kind name id found
      · rw [List.mem_singleton.mp new] at found
        exact registered kind name id found
    · intro other member name inner found
      apply List.mem_append_left
      rcases List.mem_append.mp member with old | new
      · exact sound.scopes.included other old name inner found
      · rw [List.mem_singleton.mp new] at found
        exact included name inner found
  closed := sound.closed

end Graph

/-- A scope made of these objects and scopes registers types as types and
services as services, if they are given so. -/
theorem Workspace.registered_createScope {workspace : Workspace} {types services : List ObjectId}
    {includes : Includes}
    (typesFit : ∀ id ∈ types, workspace.graph.fits .type (.object id) = true)
    (servicesFit : ∀ id ∈ services, workspace.graph.fits .service (.object id) = true)
    (kind : EntityKind) (name : String) (id : ObjectId)
    (found : Record.get? ((workspace.createScope types services includes).1.table kind) name =
      some id) : workspace.graph.fits kind.role (.object id) = true := by
  cases kind with
  | type => exact typesFit id (Scope.mem_tableOf found).1
  | service => exact servicesFit id (Scope.mem_tableOf found).1

namespace Module

open IdlLinker.Graph

theorem installAll_cons (name : String) (compiled : CompiledDefinition)
    (rest : List (String × CompiledDefinition)) (graph : Graph) :
    installAll ((name, compiled) :: rest) graph =
      ((name, compiled.kind, (compiled.install graph).1) ::
          (installAll rest (compiled.install graph).2).1,
        (installAll rest (compiled.install graph).2).2) := rfl

/-- Making objects of definitions only adds to a graph. -/
theorem installAll_grows (named : Reference → Prop) (units : List (String × CompiledDefinition))
    (graph : Graph) (base : Nat) (above : base ≤ graph.objects.size)
    (expected : ∀ unit ∈ units, ∀ reference ∈ unit.2.references, named reference) :
    Grows base named graph (installAll units graph).2 := by
  induction units generalizing graph with
  | nil => exact Grows.refl base named graph
  | cons unit rest hypothesis =>
      have first := unit.2.install_rooted named graph base above (expected unit List.mem_cons_self)
      apply first.toGrows.trans
      exact hypothesis _ (Nat.le_trans above first.size)
        fun other member => expected other (List.mem_cons_of_mem _ member)

/-- The objects made of definitions are of their kinds. -/
theorem installAll_fits (units : List (String × CompiledDefinition)) (graph : Graph) :
    ∀ entry ∈ (installAll units graph).1,
      (installAll units graph).2.fits entry.2.1.role (.object entry.2.2) = true := by
  induction units generalizing graph with
  | nil =>
      intro entry member
      cases member
  | cons unit rest hypothesis =>
      rcases unit with ⟨name, compiled⟩
      have first := compiled.install_rooted (fun _ => True) graph 0 (Nat.zero_le _)
        (by simp)
      have others := installAll_grows (fun _ => True) rest (compiled.install graph).2 0
        (Nat.zero_le _) (by simp)
      rw [installAll_cons]
      intro entry member
      rcases List.mem_cons.mp member with rfl | later
      · rcases first.object with ⟨spec, object, role⟩
        apply others.fits
        simp [Graph.fits, object, role]
      · exact hypothesis _ entry later

theorem mem_ofKind_iff {kind : EntityKind} {installed : List (String × EntityKind × ObjectId)}
    {name : String} {id : ObjectId} :
    (name, id) ∈ ofKind kind installed ↔ (name, kind, id) ∈ installed := by
  simp only [ofKind, List.mem_filterMap]
  constructor
  · rintro ⟨⟨otherName, entity, other⟩, member, picked⟩
    split at picked
    · next same =>
        cases picked
        rwa [← eq_of_beq same]
    · cases picked
  · intro member
    exact ⟨_, member, by simp⟩

theorem mem_ofKind {kind : EntityKind} {installed : List (String × EntityKind × ObjectId)}
    {id : ObjectId} (member : id ∈ (ofKind kind installed).map Prod.snd) :
    ∃ name, (name, kind, id) ∈ installed := by
  rcases List.mem_map.mp member with ⟨⟨name, found⟩, held, rfl⟩
  exact ⟨name, mem_ofKind_iff.mp held⟩

/-- A unit is refused before anything is made, or its compiled definitions are
assembled. -/
theorem compile_cases (workspace : Workspace) (definitions : List Definition)
    (includes : Includes) :
    (∃ journal error, compile workspace definitions includes =
      ⟨journal, workspace, .error error⟩) ∨
    ∃ units journal, badInclude? includes = none ∧
      (compileAfter {} definitions).outcome = .ok units ∧
        compile workspace definitions includes =
          { assemble workspace units includes with journal } := by
  unfold compile
  cases bad : badInclude? includes with
  | some name => exact Or.inl ⟨_, _, rfl⟩
  | none =>
      cases compiled : (compileAfter {} definitions).outcome with
      | error error => exact Or.inl ⟨_, _, by simp only [compiled]; rfl⟩
      | ok units => exact Or.inr ⟨units, _, rfl, rfl, by simp only [compiled]; rfl⟩

/-- The scope of a unit over included scopes. -/
def unitScope (workspace : Workspace) (units : List (String × CompiledDefinition))
    (includes : Includes) : Scope :=
  (createScope workspace (install workspace.graph units).2 (install workspace.graph units).1
    includes).1

/-- The objects of a unit linked in its scope. -/
def unitLinked (workspace : Workspace) (units : List (String × CompiledDefinition))
    (includes : Includes) : Linked Unit :=
  (linkAll (unitScope workspace units includes)
    (linkOrder (ofKind .type (install workspace.graph units).1)
      (ofKind .service (install workspace.graph units).1)) (install workspace.graph units).2).2

/-- A unit is assembled without an error when its objects are linked without
one. -/
theorem assemble_eq_ok_iff {workspace : Workspace} {units : List (String × CompiledDefinition)}
    {includes : Includes} {module : Module} :
    (assemble workspace units includes).outcome = .ok module ↔
      (unitLinked workspace units includes).outcome = .ok () ∧
        module = ⟨ofKind .type (install workspace.graph units).1,
          ofKind .service (install workspace.graph units).1,
          unitScope workspace units includes⟩ := by
  constructor
  · intro ended
    simp only [assemble] at ended
    split at ended
    · next linked =>
        cases ended
        exact ⟨linked, rfl⟩
    · cases ended
  · rintro ⟨linked, rfl⟩
    simp only [assemble]
    split
    · rfl
    · next error failed =>
        change (unitLinked workspace units includes).outcome = .error error at failed
        rw [linked] at failed
        cases failed

/-- Linking the objects of a unit keeps a graph sound. -/
theorem linkAll_sound {family : Scope → Prop} {scope : Scope} (member : family scope)
    (order : List (String × EntityKind × ObjectId)) {graph : Graph}
    (sound : graph.Sound family) : (linkAll scope order graph).2.graph.Sound family := by
  induction order generalizing graph with
  | nil => exact sound
  | cons entry rest hypothesis =>
      rcases entry with ⟨name, kind, id⟩
      have linked := sound.linkObject member id
      simp only [linkAll]
      split
      · exact hypothesis linked
      · exact linked

end Module

namespace Session

open IdlLinker.Graph

/-- The graph of the session is sound for its scopes. -/
def Sound (session : Session) : Prop := session.graph.Sound (· ∈ session.scopes)

theorem sound_initial : Sound {} where
  idle := rfl
  present id marked := by cases marked
  typed id spec position slot object := by simp [Graph.object?, graph] at object
  scopes := by
    constructor
    · intro scope member kind name id found
      rw [List.mem_singleton.mp member] at found
      cases kind <;> cases found
    · intro scope member name inner found
      rw [List.mem_singleton.mp member] at found
      cases found
  closed id marked := by cases marked

variable {session : Session}

theorem mem_scopes_of_scopesOf? {named : List (String × Nat)} {includes : Includes}
    (found : session.scopesOf? named = some includes) :
    ∀ entry ∈ includes, entry.2 ∈ session.scopes := by
  induction named generalizing includes with
  | nil =>
      cases found
      simp
  | cons first rest hypothesis =>
      rcases first with ⟨name, index⟩
      simp only [scopesOf?, List.mapM_cons, Option.bind_eq_bind, Option.pure_def,
        Option.bind_eq_some_iff, Option.map_eq_some_iff, Option.some.injEq] at found
      rcases found with ⟨entry, ⟨scope, held, rfl⟩, others, restFound, rfl⟩
      intro entry member
      rcases List.mem_cons.mp member with rfl | later
      · exact List.mem_of_getElem? held
      · exact hypothesis restFound entry later

/-- What a call can do to a session. -/
inductive Step (session : Session) : Session → Prop where
  | idle : Step session session
  | grow {grown : Graph} (grows : Grows 0 (fun _ => True) session.graph grown) :
      Step session (session.withGraph grown)
  | scope {types services : List ObjectId} {includes : Includes}
      (known : ∀ entry ∈ includes, entry.2 ∈ session.scopes) :
      Step session (session.createScope types services includes)
  | unit {definitions : List Definition} {includes : Includes}
      (known : ∀ entry ∈ includes, entry.2 ∈ session.scopes) :
      Step session (session.compileModule definitions includes)
  | link {call : LinkCall} {scope : Scope} (member : scope ∈ session.scopes) :
      Step session (session.withGraph (call.perform session.graph scope).graph)

theorem step_install {α β : Type} (compilation : Compilation α) (installer : α → StateM Graph β)
    (grows : ∀ value, Grows 0 (fun _ => True) session.graph (installer value session.graph).2) :
    session.Step (session.install compilation installer) := by
  unfold Session.install
  split
  · next value ended => exact Step.grow (grows value)
  · exact Step.idle

theorem step_perform (session : Session) (call : Call) : session.Step (session.perform call) := by
  cases call with
  | compile definition =>
      apply step_install
      intro compiled
      exact (compiled.install_rooted (fun _ => True) _ 0 (Nat.zero_le _) (by simp)).toGrows
  | compileType type =>
      apply step_install (pure type) TypeExpression.install
      intro expression
      exact (expression.install_installed (fun _ => True) _ 0 (Nat.zero_le _) (by simp)).toGrows
  | compileFunction function =>
      apply step_install
      intro spec
      exact (spec.install_installed (fun _ => True) _ 0 (Nat.zero_le _) (by simp)).toGrows
  | compileFields fields rules =>
      apply step_install
      intro specs
      exact (FieldGroup.install_rooted (fun _ => True) specs _ 0 (Nat.zero_le _) (by simp)).toGrows
  | createScope types services includes =>
      simp only [perform]
      split
      · next entries found => exact Step.scope (mem_scopes_of_scopesOf? found)
      · exact Step.idle
  | compileModule definitions includes =>
      simp only [perform]
      split
      · next entries found => exact Step.unit (mem_scopes_of_scopesOf? found)
      · exact Step.idle
  | link call scope =>
      simp only [perform]
      split
      · next scope held =>
          split
          · exact Step.link (List.mem_of_getElem? held)
          · exact Step.idle
      · exact Step.idle

theorem Sound.createScope (sound : session.Sound) (types services : List ObjectId)
    {includes : Includes} (known : ∀ entry ∈ includes, entry.2 ∈ session.scopes) :
    (session.createScope types services includes).Sound := by
  unfold Session.createScope
  split
  · next admitted =>
      simp only [Bool.and_eq_true, List.all_eq_true] at admitted
      apply Graph.Sound.addScope sound
      · exact Workspace.registered_createScope admitted.1 admitted.2
      · intro name inner found
        exact known _ (Record.mem_of_mem_ofEntries (Record.mem_of_get? found))
  · exact sound

/-- Made and not yet linked, the objects of a unit and its scope are sound. -/
theorem Sound.unit (sound : session.Sound) (units : List (String × CompiledDefinition))
    {includes : Includes} (known : ∀ entry ∈ includes, entry.2 ∈ session.scopes) :
    (Module.install session.workspace.graph units).2.Sound
      (· ∈ session.scopes ++ [Module.unitScope session.workspace units includes]) := by
  have grown : (Module.install session.workspace.graph units).2.Sound (· ∈ session.scopes) :=
    Graph.Sound.grow sound
      (Module.installAll_grows (fun _ => True) units session.graph 0 (Nat.zero_le _) (by simp))
  apply grown.addScope
  · apply Workspace.registered_createScope
    · intro id member
      rcases Module.mem_ofKind member with ⟨name, entry⟩
      exact Module.installAll_fits units session.graph _ entry
    · intro id member
      rcases Module.mem_ofKind member with ⟨name, entry⟩
      exact Module.installAll_fits units session.graph _ entry
  · intro name inner found
    exact known _ (Record.mem_of_mem_ofEntries (Record.mem_of_get? found))

/-- The objects of a unit, linked in the unit's scope. -/
theorem Sound.assemble (sound : session.Sound) (units : List (String × CompiledDefinition))
    {includes : Includes} (known : ∀ entry ∈ includes, entry.2 ∈ session.scopes) :
    (Module.assemble session.workspace units includes).workspace.graph.Sound
      (· ∈ session.scopes ++ [Module.unitScope session.workspace units includes]) :=
  Module.linkAll_sound (List.mem_append_right _ (List.mem_singleton_self _)) _
    (sound.unit units known)

theorem Sound.compileModule (sound : session.Sound) (definitions : List Definition)
    {includes : Includes} (known : ∀ entry ∈ includes, entry.2 ∈ session.scopes) :
    (session.compileModule definitions includes).Sound := by
  unfold Session.compileModule
  rcases Module.compile_cases session.workspace definitions includes with
    ⟨journal, error, refused⟩ | ⟨units, journal, _, _, assembled⟩
  · rw [refused]
    exact sound
  · rw [assembled]
    have linked := sound.assemble units known
    cases ended : (Module.assemble session.workspace units includes).outcome with
    | ok module =>
        simp only [ended]
        rw [(Module.assemble_eq_ok_iff.mp ended).2]
        exact linked
    | error error =>
        simp only [ended]
        apply linked.narrow
        · exact fun scope member => List.mem_append_left _ member
        · exact sound.scopes.included

/-- Every call keeps a session sound. -/
theorem Sound.perform (sound : session.Sound) (call : Call) : (session.perform call).Sound := by
  have step := step_perform session call
  generalize session.perform call = after at step ⊢
  cases step with
  | idle => exact sound
  | grow grows => exact Graph.Sound.grow sound grows
  | scope known => exact sound.createScope _ _ known
  | unit known => exact sound.compileModule _ known
  | link member => exact Graph.Sound.perform sound member _

/-- A session is sound after any sequence of calls. -/
theorem sound_run (calls : List Call) : (run calls).Sound := by
  have sound (session : Session) (start : session.Sound) :
      (calls.foldl perform session).Sound := by
    induction calls generalizing session with
    | nil => exact start
    | cons call rest hypothesis => exact hypothesis _ (start.perform call)
  exact sound {} sound_initial

end Session

end IdlLinker
