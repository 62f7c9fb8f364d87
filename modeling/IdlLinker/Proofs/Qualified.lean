import IdlLinker.Proofs.Frozen
import IdlLinker.Proofs.Names
import IdlLinker.Scope.Qualified

/-!
# Resolution is canonical

Whatever a name resolves to is registered by the scope that the keys of the
name lead to.  This holds in every scope that is made over scopes made so, and
the scopes of a session are such scopes, then and after any later calls.
-/

namespace IdlLinker

namespace Graph

variable {before between after graph : Graph} {id : ObjectId} {ids : List ObjectId} {name : String}

theorem NamedAlike.name? (alike : before.NamedAlike after id) :
    after.name? id = before.name? id := by
  rcases alike with ⟨spec, changed, object, found, same⟩
  rw [Graph.name?, Graph.name?, object, found, Option.bind_some, Option.bind_some, same]

/-- Later calls rename nothing. -/
theorem NamedAlike.later (alike : before.NamedAlike between id) (onward : between.Later after) :
    before.NamedAlike after id := by
  rcases alike with ⟨spec, changed, object, found, same⟩
  rcases onward.objects id changed found with ⟨last, lastFound, shape, _⟩
  refine ⟨spec, last, object, lastFound, ?_⟩
  rw [← Spec.name?_shape, shape, Spec.name?_shape, same]

theorem namedAlike_of_fits {role : Role} (fits : graph.fits role (.object id) = true) :
    graph.NamedAlike graph id := by
  cases object : graph.object? id with
  | none => simp [Graph.fits, object] at fits
  | some spec => exact ⟨spec, spec, object, object, rfl⟩

/-- Where objects have the same names, the last of a name is the same. -/
theorem LastOf.congr (last : before.LastOf ids name id)
    (same : ∀ other ∈ ids, before.name? other = after.name? other) :
    after.LastOf ids name id := by
  rcases last with ⟨early, late, rfl, named, others⟩
  refine ⟨early, late, rfl, ?_, ?_⟩
  · rw [← same id (by simp), named]
  · intro other member
    rw [← same other (by simp [member])]
    exact others other member

theorem find?_reverse_eq_some_iff :
    (ids.reverse.find? fun id => graph.name? id = some name) = some id ↔
      graph.LastOf ids name id := by
  simp only [List.find?_eq_some_iff_append, decide_eq_true_eq, Bool.not_eq_true',
    decide_eq_false_iff_not]
  constructor
  · rintro ⟨named, late, early, parts, others⟩
    refine ⟨early.reverse, late.reverse, ?_, named, by simpa using others⟩
    simpa using congrArg List.reverse parts
  · rintro ⟨early, late, rfl, named, others⟩
    exact ⟨named, late.reverse, early.reverse, by simp, by simpa using others⟩

end Graph

namespace Scope

variable {graph after : Graph} {scope inner home : Scope} {makings : Makings} {kind : EntityKind}
  {name own key rest : String} {keys : List String} {id : ObjectId} {ids : List ObjectId}

/-! ## What is registered -/

theorem get?_register (entries : List (String × ObjectId)) (id : ObjectId) :
    Record.get? (register graph entries id) name =
      if graph.name? id = some name then some id else Record.get? entries name := by
  unfold register
  cases named : graph.name? id with
  | none => simp
  | some other => simp [Record.get?_put]

/-- A table has the last object of each name. -/
theorem get?_tableOf_eq_some_iff (graph : Graph) (ids : List ObjectId) (name : String) :
    Record.get? (tableOf graph ids) name = some id ↔ graph.LastOf ids name id := by
  have latest : Record.get? (tableOf graph ids) name =
      ids.reverse.find? fun id => graph.name? id = some name := by
    induction ids using List.reverseRecOn with
    | nil => rfl
    | append_singleton early last hypothesis =>
        have step :
            tableOf graph (early ++ [last]) = register graph (tableOf graph early) last := by
          simp [tableOf]
        rw [step, get?_register, hypothesis, List.reverse_append]
        by_cases named : graph.name? last = some name <;> simp [named]
  rw [latest, Graph.find?_reverse_eq_some_iff]

theorem MadeOf.get?_table (made : scope.MadeOf graph makings) :
    Record.get? (scope.table kind) name = some id ↔
      graph.LastOf (makings.given kind) name id := by
  rcases made with ⟨workspace, rfl, names⟩
  have table : (workspace.createScope makings.types makings.services makings.includes).1.table
      kind = tableOf workspace.graph (makings.given kind) := by
    cases kind <;> rfl
  rw [table, get?_tableOf_eq_some_iff]
  exact ⟨fun last => last.congr fun other member => (names kind other member).name?.symm,
    fun last => last.congr fun other member => (names kind other member).name?⟩

/-- The scope under a key is the last given under it. -/
theorem MadeOf.get?_includes (made : scope.MadeOf graph makings) :
    Record.get? scope.includes key = some inner ↔ makings.Under key inner := by
  have included : scope.includes = Record.ofEntries makings.includes := by
    rcases made with ⟨workspace, rfl, _⟩
    rfl
  rw [included, Record.get?_ofEntries, Record.get?, Option.map_eq_some_iff]
  simp only [List.find?_eq_some_iff_append, beq_iff_eq, Bool.not_eq_true', beq_eq_false_iff_ne]
  constructor
  · rintro ⟨⟨_, _⟩, ⟨rfl, late, early, parts, others⟩, rfl⟩
    refine ⟨early.reverse, late.reverse, ?_, by simpa using others⟩
    simpa using congrArg List.reverse parts
  · rintro ⟨early, late, given, others⟩
    exact ⟨(key, inner), ⟨rfl, late.reverse, early.reverse, by simp [given],
      by simpa using others⟩, rfl⟩

theorem MadeOf.later (made : scope.MadeOf graph makings) (onward : graph.Later after) :
    scope.MadeOf after makings := by
  rcases made with ⟨workspace, rfl, names⟩
  exact ⟨workspace, rfl, fun kind id member => (names kind id member).later onward⟩

namespace Built

theorem later (built : Built graph scope) (onward : graph.Later after) : Built after scope := by
  induction built with
  | empty => exact .empty
  | made made _ hypothesis => exact .made (made.later onward) hypothesis

/-- The entries of a scope are what it registers. -/
theorem registered_iff (built : Built graph scope) :
    scope.Registered graph kind name id ↔ Record.get? (scope.table kind) name = some id := by
  constructor
  · rintro ⟨⟨makings, made⟩, last⟩
    exact made.get?_table.mpr (last makings made)
  · intro found
    cases built with
    | empty => cases kind <;> cases found
    | made made _ => exact ⟨⟨_, made⟩, fun makings other => other.get?_table.mp found⟩

theorem get?_eq_none_iff (built : Built graph scope) :
    Record.get? (scope.table kind) name = none ↔ ∀ id, ¬ scope.Registered graph kind name id := by
  simp only [built.registered_iff, ← Option.eq_none_iff_forall_ne_some]

/-- The scopes under the keys of a scope are what it includes. -/
theorem included_iff (built : Built graph scope) :
    scope.Included graph key inner ↔ Record.get? scope.includes key = some inner := by
  constructor
  · rintro ⟨⟨makings, made⟩, last⟩
    exact made.get?_includes.mpr (last makings made)
  · intro found
    cases built with
    | empty => cases found
    | made made _ => exact ⟨⟨_, made⟩, fun makings other => other.get?_includes.mp found⟩

theorem leads_iff (built : Built graph scope) :
    scope.Leads graph key inner ↔
      '.' ∉ key.toList ∧ key ≠ "" ∧ Record.get? scope.includes key = some inner := by
  rw [← built.included_iff]
  exact ⟨fun step => ⟨step.plain, step.nonempty, step.included⟩,
    fun ⟨plain, nonempty, included⟩ => ⟨plain, nonempty, included⟩⟩

theorem inward (built : Built graph scope) (step : scope.Leads graph key inner) :
    Built graph inner := by
  cases built with
  | empty => cases (Built.empty.included_iff.mp step.included)
  | made made within =>
      rcases step.included.last _ made with ⟨before, after, given, _⟩
      exact within (key, inner) (given ▸ List.mem_append_right before List.mem_cons_self)

theorem descend (built : Built graph scope) (way : scope.Descends graph keys home) :
    Built graph home := by
  induction way with
  | here => exact built
  | inward step _ hypothesis => exact hypothesis (built.inward step)

end Built

theorem Registered.name? (registered : scope.Registered graph kind name id) :
    graph.name? id = some name := by
  rcases registered with ⟨⟨makings, made⟩, last⟩
  rcases last makings made with ⟨_, _, _, named, _⟩
  exact named

/-! ## How a name resolves -/

theorem Built.resolve_of_leads (built : Built graph scope)
    (missing : Record.get? (scope.table kind) (key ++ "." ++ rest) = none)
    (step : scope.Leads graph key inner) :
    scope.resolve kind (key ++ "." ++ rest) = inner.resolve kind rest := by
  rcases built.leads_iff.mp step with ⟨plain, nonempty, found⟩
  rw [resolve_of_dotted missing plain, if_neg nonempty, found]
  rfl

/-- A name that a scope neither has nor leads on from does not resolve. -/
theorem Built.resolve_of_missing (built : Built graph scope)
    (missing : Record.get? (scope.table kind) name = none)
    (stuck : ∀ key rest inner, name = key ++ "." ++ rest → ¬ scope.Leads graph key inner) :
    scope.resolve kind name = none := by
  rcases Name.plain_or_dotted name with plain | ⟨key, rest, plain, rfl⟩
  · exact resolve_of_plain missing plain
  · rw [resolve_of_dotted missing plain]
    split
    · rfl
    · next nonempty =>
        cases found : Record.get? scope.includes key with
        | none => rfl
        | some inner =>
            exact absurd (built.leads_iff.mpr ⟨plain, nonempty, found⟩) (stuck key rest inner rfl)

/-- The keys of a name that resolves lead to the scope that has an entry for the
remaining name. -/
theorem Built.descends_of_resolve (built : Built graph scope)
    (resolved : scope.resolve kind name = some (id, home)) :
    ∃ keys own, name = qualified keys own ∧ scope.Descends graph keys home ∧
      Record.get? (home.table kind) own = some id := by
  -- The rest after a key is shorter than the name.
  induction size : name.length using Nat.strongRecOn generalizing scope name with
  | ind length hypothesis =>
      cases own : Record.get? (scope.table kind) name with
      | some other =>
          obtain ⟨rfl, rfl⟩ : other = id ∧ scope = home := by
            simpa [resolve_of_own own] using resolved
          exact ⟨[], name, rfl, .here scope, own⟩
      | none =>
          by_cases stuck :
              ∀ key rest inner, name = key ++ "." ++ rest → ¬ scope.Leads graph key inner
          · rw [built.resolve_of_missing own stuck] at resolved
            cases resolved
          · push Not at stuck
            rcases stuck with ⟨key, rest, inner, rfl, step⟩
            rw [built.resolve_of_leads own step] at resolved
            have shorter : rest.length < length := by
              have dot : ".".length = 1 := rfl
              rw [← size, String.length_append, String.length_append]
              omega
            rcases hypothesis rest.length shorter (built.inward step) resolved rfl with
              ⟨keys, last, rfl, way, found⟩
            exact ⟨key :: keys, last, rfl, .inward step way, found⟩

/-- Resolution in scopes made over scopes made so. -/
theorem Built.canonical (built : Built graph scope) (kind : EntityKind) (name : String) :
    scope.Canonical graph kind name where
  found id home resolved := by
    rcases built.descends_of_resolve resolved with ⟨keys, own, parts, way, entry⟩
    have registered := (built.descend way).registered_iff.mpr entry
    exact ⟨keys, own, parts, way, registered.name?, registered, resolve_of_own entry⟩
  own id registered := resolve_of_own (built.registered_iff.mp registered)
  included key rest inner parts step missing := by
    subst parts
    exact built.resolve_of_leads (built.get?_eq_none_iff.mpr missing) step
  missing unregistered stuck :=
    built.resolve_of_missing (built.get?_eq_none_iff.mpr unregistered) stuck
  lookup id := by simp [Scope.lookup]
  registers makings id made last := built.registered_iff.mpr (made.get?_table.mpr last)
  includes makings key inner made last := built.included_iff.mpr (made.get?_includes.mpr last)

/-- What a workspace makes of objects that it has, over scopes made so. -/
theorem built_createScope {workspace : Workspace} {types services : List ObjectId}
    {includes : IdlLinker.Includes}
    (typesFit : ∀ id ∈ types, workspace.graph.fits .type (.object id) = true)
    (servicesFit : ∀ id ∈ services, workspace.graph.fits .service (.object id) = true)
    (known : ∀ entry ∈ includes, entry.2.Built workspace.graph) :
    (workspace.createScope types services includes).1.Built workspace.graph := by
  have made : (workspace.createScope types services includes).1.MadeOf workspace.graph
      ⟨types, services, includes⟩ := by
    refine ⟨workspace, rfl, ?_⟩
    rintro (_ | _) id given
    · exact Graph.namedAlike_of_fits (typesFit id given)
    · exact Graph.namedAlike_of_fits (servicesFit id given)
  exact .made made known

end Scope

namespace Session

open IdlLinker.Graph

variable {session : Session} {scope : Scope} {index : Nat}

/-- Every scope of a session is made over scopes made so. -/
def ScopesBuilt (session : Session) : Prop := ∀ scope ∈ session.scopes, scope.Built session.graph

theorem ScopesBuilt.later (built : session.ScopesBuilt) {graph : Graph}
    (onward : session.graph.Later graph) : (session.withGraph graph).ScopesBuilt :=
  fun scope member => (built scope member).later onward

theorem ScopesBuilt.createScope (built : session.ScopesBuilt) {types services : List ObjectId}
    {includes : Includes} (known : ∀ entry ∈ includes, entry.2 ∈ session.scopes) :
    (session.createScope types services includes).ScopesBuilt := by
  unfold Session.createScope
  split
  · next admitted =>
      simp only [Bool.and_eq_true, List.all_eq_true] at admitted
      intro scope member
      rcases List.mem_append.mp member with old | new
      · exact built scope old
      · rw [List.mem_singleton.mp new]
        exact Scope.built_createScope admitted.1 admitted.2
          fun entry held => built _ (known entry held)
  · exact built

/-- The scope of a unit is made of the unit's objects, over the includes. -/
theorem ScopesBuilt.unitScope (built : session.ScopesBuilt)
    (units : List (String × CompiledDefinition)) {includes : Includes}
    (known : ∀ entry ∈ includes, entry.2 ∈ session.scopes) :
    (Module.unitScope session.workspace units includes).Built
      (Module.install session.workspace.graph units).2 := by
  have grows := Module.installAll_grows (fun _ => True) units session.graph 0 (Nat.zero_le _)
    (by simp)
  refine @Scope.built_createScope
    { session.workspace with graph := (Module.install session.workspace.graph units).2 }
    _ _ _ ?_ ?_ ?_
  · intro id member
    rcases Module.mem_ofKind member with ⟨name, entry⟩
    exact Module.installAll_fits units session.graph _ entry
  · intro id member
    rcases Module.mem_ofKind member with ⟨name, entry⟩
    exact Module.installAll_fits units session.graph _ entry
  · exact fun entry held => (built _ (known entry held)).later grows.later

theorem ScopesBuilt.compileModule (built : session.ScopesBuilt)
    (idle : session.graph.pending = none) (definitions : List Definition) {includes : Includes}
    (known : ∀ entry ∈ includes, entry.2 ∈ session.scopes) :
    (session.compileModule definitions includes).ScopesBuilt := by
  have onward := later_compileModule idle definitions includes
  unfold Session.compileModule at onward ⊢
  rcases Module.compile_cases session.workspace definitions includes with
    ⟨journal, error, refused⟩ | ⟨units, journal, _, _, assembled⟩
  · rw [refused] at onward ⊢
    exact built.later onward
  · rw [assembled] at onward ⊢
    have linked := relinked_assemble session.workspace idle units includes
    cases ended : (Module.assemble session.workspace units includes).outcome with
    | error error =>
        simp only [ended] at onward ⊢
        exact built.later onward
    | ok module =>
        simp only [ended] at onward ⊢
        intro scope member
        rcases List.mem_append.mp member with old | new
        · exact (built scope old).later onward
        · rw [List.mem_singleton.mp new, (Module.assemble_eq_ok_iff.mp ended).2]
          exact (built.unitScope units known).later linked.later

theorem ScopesBuilt.perform (built : session.ScopesBuilt) (sound : session.Sound) (call : Call) :
    (session.perform call).ScopesBuilt := by
  have step := step_perform session call
  generalize session.perform call = after at step ⊢
  cases step with
  | idle => exact built
  | grow grows => exact built.later grows.later
  | scope known => exact built.createScope known
  | unit known => exact built.compileModule sound.idle _ known
  | link member => exact built.later (relinked_perform sound.idle _ _).later

/-- The scopes of a session are made over scopes made so. -/
theorem scopesBuilt_run (calls : List Call) : (run calls).ScopesBuilt := by
  induction calls using List.reverseRecOn with
  | nil =>
      intro scope member
      rw [List.mem_singleton.mp member]
      exact .empty
  | append_singleton earlier call hypothesis =>
      have split : run (earlier ++ [call]) = (run earlier).perform call := List.foldl_append
      rw [split]
      exact hypothesis.perform (sound_run earlier) call

/-- A call adds scopes behind those that were made. -/
theorem scopes_perform (made : session.scopes[index]? = some scope) (call : Call) :
    (session.perform call).scopes[index]? = some scope := by
  have kept (more : List Scope) : (session.scopes ++ more)[index]? = some scope := by
    rw [List.getElem?_append_left (List.getElem?_eq_some_iff.mp made).1, made]
  have step := step_perform session call
  generalize session.perform call = after at step ⊢
  cases step with
  | idle => exact made
  | grow grows => exact made
  | link member => exact made
  | scope known =>
      unfold Session.createScope
      split
      · exact kept _
      · exact made
  | unit known =>
      simp only [Session.compileModule]
      split
      · exact kept _
      · exact made

theorem scopes_run (calls later : List Call) (made : (run calls).scopes[index]? = some scope) :
    (run (calls ++ later)).scopes[index]? = some scope := by
  induction later using List.reverseRecOn with
  | nil => rwa [List.append_nil]
  | append_singleton earlier call hypothesis =>
      have split : run (calls ++ (earlier ++ [call])) = (run (calls ++ earlier)).perform call := by
        rw [← List.append_assoc]
        exact List.foldl_append
      rw [split]
      exact scopes_perform hypothesis call

/-- Resolution is canonical in every scope that is made over scopes made so,
whatever the graph.  The scopes of a session are made so; a scope stays as it is
whatever is called later, and what it answers is still told by the names that
the objects have. -/
theorem resolution_canonical :
    (∀ graph (scope : Scope), scope.Built graph →
      ∀ kind name, scope.Canonical graph kind name) ∧
    ∀ calls later (index : Nat) (scope : Scope), (run calls).scopes[index]? = some scope →
      scope.Built (run calls).graph ∧
        (run (calls ++ later)).scopes[index]? = some scope ∧
        scope.Built (run (calls ++ later)).graph := by
  refine ⟨fun graph scope built => built.canonical, ?_⟩
  intro calls later index scope made
  have still := scopes_run calls later made
  exact ⟨scopesBuilt_run calls scope (List.mem_of_getElem? made), still,
    scopesBuilt_run (calls ++ later) scope (List.mem_of_getElem? still)⟩

/-- Two structs of one name in a scope, the way to which leads through another
scope; a struct with a dot in its name shadows a shorter way. -/
def shadowedWays : List Call :=
  [.compile (.struct ⟨.struct, "Node", [], .ofInt 1⟩),
    .compile (.struct ⟨.struct, "Node", [], .ofInt 2⟩),
    .compile (.struct ⟨.struct, "near.Node", [], .ofInt 3⟩),
    .createScope [0, 1] [] [],
    .createScope [] [] [("near", 1)],
    .createScope [2] [] [("far", 2), ("near", 1)]]

/-- The way to the later struct is told also after further calls. -/
theorem resolution_canonical_shadowedWays :
    ∃ scope home : Scope, (run shadowedWays).scopes[3]? = some scope ∧
      scope.resolve .type "far.near.Node" = some (1, home) ∧
      scope.lookup .type "near.Node" = some 2 ∧
      (run (shadowedWays ++ [.link (.type (.object 1)) 3])).scopes[3]? = some scope ∧
      ∃ keys own, "far.near.Node" = Scope.qualified keys own ∧
        scope.Descends (run (shadowedWays ++ [.link (.type (.object 1)) 3])).graph keys home ∧
        home.Registered (run (shadowedWays ++ [.link (.type (.object 1)) 3])).graph
          .type own 1 := by
  obtain ⟨scope, made⟩ : ∃ scope, (run shadowedWays).scopes[3]? = some scope := ⟨_, rfl⟩
  have found : (run shadowedWays).scopes[3]?.bind (·.lookup .type "far.near.Node") = some 1 := by
    decide
  have shadow : (run shadowedWays).scopes[3]?.bind (·.lookup .type "near.Node") = some 2 := by
    decide
  rw [made] at found shadow
  have onward := (resolution_canonical.2 shadowedWays [.link (.type (.object 1)) 3] 3 scope made).2
  have canonical := resolution_canonical.1 _ scope onward.2 .type "far.near.Node"
  rcases (canonical.lookup 1).mp found with ⟨home, resolved⟩
  rcases canonical.found 1 home resolved with ⟨keys, own, parts, way, _, registered, _⟩
  exact ⟨scope, home, made, resolved, shadow, onward.1, keys, own, parts, way, registered⟩

end Session

end IdlLinker
