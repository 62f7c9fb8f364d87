import IdlLinker.Proofs.LinkedSpecs
import IdlLinker.Proofs.Units

/-!
# Modules

Over scopes of modules made before, a unit becomes a module when its names are
distinct, each definition compiles on its own, and each reference resolves:
among the definitions, or after the first dot of its name in an include.  The
module has exactly the objects that the definitions declare, with what the
references denote in its scope in their places.
-/

namespace IdlLinker

namespace Module

open IdlLinker.Graph

/-- A reference resolves in a unit: a definition of its kind has its name, or
what follows the first dot of its name means something in what is included
under the part before the dot. -/
inductive Resolves (definitions : List Definition) (includes : Includes) (reference : Reference) :
    Prop where
  | own {definition : Definition} (member : definition ∈ definitions)
      (kind : definition.kind = reference.kind) (name : definition.name = reference.name) :
      Resolves definitions includes reference
  | included {key rest : String} {inner : Scope} {id : ObjectId}
      (name : reference.name = key ++ "." ++ rest) (plain : '.' ∉ key.toList)
      (found : Record.get? (Record.ofEntries includes) key = some inner)
      (meant : Scope.Means reference.kind inner rest id) : Resolves definitions includes reference

/-- A scope of a module whose includes are such scopes themselves. -/
inductive Layered (modules : List Module) : Scope → Prop where
  | mk {module : Module} (member : module ∈ modules)
      (included : ∀ name inner, Record.get? module.scope.includes name = some inner →
        Layered modules inner) : Layered modules module.scope

/-- The definitions of one kind by name, in order, with their objects. -/
def entries (kind : EntityKind) (definitions : List Definition) (ids : List ObjectId) :
    List (String × ObjectId) :=
  (definitions.zip ids).filterMap fun (definition, id) =>
    if definition.kind == kind then some (definition.name, id) else none

/-- A module of definitions over includes: each object is the one that its
definition declares, with what references denote in the module's scope in their
places, all that is reached is linked, and the maps and the scope have exactly
these objects. -/
structure Made (graph : Graph) (definitions : List Definition) (includes : Includes)
    (module : Module) (ids : List ObjectId) : Prop where
  declares : List.Forall₂ (graph.Declares module.scope.Denotes) definitions ids
  linked : ∀ id ∈ ids, ∀ other, graph.Reaches id other → other ∈ graph.linked
  types : module.types = entries .type definitions ids
  services : module.services = entries .service definitions ids
  registered : ∀ kind, module.scope.table kind = entries kind definitions ids
  included : module.scope.includes = Record.ofEntries includes

variable {definitions : List Definition} {units : List (String × CompiledDefinition)}
  {includes : Includes} {workspace : Workspace}

theorem ofKind_eq_entries {graph : Graph} {means : Reference → Slot → Prop}
    {installed : List (String × EntityKind × ObjectId)}
    (installs : List.Forall₂ (Installs graph means) definitions installed) (kind : EntityKind) :
    ofKind kind installed = entries kind definitions (installed.map (·.2.2)) := by
  induction installs with
  | nil => rfl
  | @cons definition entry _ _ here _ hypothesis =>
      rcases entry with ⟨name, entity, id⟩
      rcases here with ⟨rfl, rfl, _⟩
      simp only [ofKind, entries, List.map_cons, List.zip_cons_cons, List.filterMap_cons]
        at hypothesis ⊢
      rw [hypothesis]

theorem nodup_install (compiled : List.Forall₂ Compiles definitions units)
    (distinct : (definitions.map (·.name)).Nodup) :
    ((install workspace.graph units).1.map (·.1)).Nodup := by
  have names : (install workspace.graph units).1.map (·.1) = definitions.map (·.name) :=
    names_of_installs (forall₂_installs compiled workspace.graph)
  rwa [names]

/-- The scope of a unit has its objects under their names. -/
theorem table_unit (compiled : List.Forall₂ Compiles definitions units)
    (distinct : (definitions.map (·.name)).Nodup) (kind : EntityKind) :
    (unitScope workspace units includes).table kind =
      ofKind kind (install workspace.graph units).1 := by
  have installs := forall₂_installs compiled workspace.graph
  apply table_createScope
  · intro entry member
    rcases exists_left_of_forall₂ installs member with ⟨definition, _, name, _, declares⟩
    rw [name]
    exact declares.name?
  · exact nodup_install compiled distinct

theorem get?_unit_iff (compiled : List.Forall₂ Compiles definitions units)
    (distinct : (definitions.map (·.name)).Nodup) {kind : EntityKind} {name : String}
    {id : ObjectId} :
    Record.get? ((unitScope workspace units includes).table kind) name = some id ↔
      (name, kind, id) ∈ (install workspace.graph units).1 := by
  rw [table_unit compiled distinct, Record.get?_eq_some_iff, mem_ofKind_iff]
  exact (nodup_install compiled distinct).sublist (sublist_ofKind kind _)

/-- A name means something in the scope of a unit if its reference resolves in
the unit. -/
theorem exists_means_unit_iff (compiled : List.Forall₂ Compiles definitions units)
    (distinct : (definitions.map (·.name)).Nodup)
    (identifiers : ∀ entry ∈ includes, Name.isIdentifier entry.1 = true) (reference : Reference) :
    (∃ id, Scope.Means reference.kind (unitScope workspace units includes) reference.name id) ↔
      Resolves definitions includes reference := by
  have installs := forall₂_installs compiled workspace.graph
  constructor
  · rintro ⟨id, meant⟩
    rcases Scope.means_iff.mp meant with own | ⟨_, key, rest, inner, name, plain, _, found, meant⟩
    · rcases exists_left_of_forall₂ installs ((get?_unit_iff compiled distinct).mp own) with
        ⟨definition, member, name, kind, _⟩
      exact Resolves.own member kind.symm name.symm
    · exact Resolves.included name plain found meant
  · intro resolves
    cases resolves with
    | own member kind name =>
        rcases exists_right_of_forall₂ installs member with ⟨⟨_, _, id⟩, made, rfl, rfl, _⟩
        refine ⟨id, Scope.Means.own ((get?_unit_iff compiled distinct).mpr ?_)⟩
        rw [← kind, ← name]
        exact made
    | @included key rest inner id name plain found meant =>
        cases own : Record.get? ((unitScope workspace units includes).table reference.kind)
            reference.name with
        | some other => exact ⟨other, Scope.Means.own own⟩
        | none =>
            have entry := Record.mem_of_mem_ofEntries (Record.mem_of_get? found)
            have nonempty := (Name.plain_of_isIdentifier (identifiers _ entry)).2
            refine ⟨id, ?_⟩
            rw [name] at own ⊢
            exact Scope.Means.included own plain nonempty found meant

/-- The references that the objects of a unit hold are mentioned by its
definitions. -/
theorem mentioned_of_held (compiled : List.Forall₂ Compiles definitions units) {id : ObjectId}
    {position : Nat} {reference : Reference} (above : workspace.graph.objects.size ≤ id)
    (held : (install workspace.graph units).2.slot? id position = some (.unresolved reference)) :
    ∃ definition ∈ definitions, reference ∈ definition.references := by
  have grows := installAll_grows
    (fun reference => ∃ definition ∈ definitions, reference ∈ definition.references) units
    workspace.graph workspace.graph.objects.size (Nat.le_refl _) (by
      intro unit member reference mentioned
      rcases exists_left_of_forall₂ compiled member with ⟨definition, definitionMember, _, ended⟩
      rw [(Definition.compile_keeps ended).references] at mentioned
      exact ⟨definition, definitionMember, mentioned⟩)
  rcases Option.bind_eq_some_iff.mp held with ⟨spec, object, slot⟩
  exact (grows.fresh id spec above object position _ slot).1.mentioned reference rfl

/-- What the references of definitions mean in their includes is linked. -/
def Supplied (graph : Graph) (definitions : List Definition) (includes : Includes) : Prop :=
  ∀ definition ∈ definitions, ∀ reference ∈ definition.references, ∀ entry ∈ includes,
    ∀ rest id, reference.name = entry.1 ++ "." ++ rest →
      Scope.Means reference.kind entry.2 rest id → id ∈ graph.linked

/-- The objects of a unit are enclosed if what they refer to in the includes is
linked. -/
theorem enclosed_unit (compiled : List.Forall₂ Compiles definitions units)
    (distinct : (definitions.map (·.name)).Nodup)
    (supplied : Supplied workspace.graph definitions includes) :
    Enclosed (unitScope workspace units includes) workspace.graph.objects.size
      (install workspace.graph units).2 := by
  have grows := installAll_grows (fun _ => True) units workspace.graph
    workspace.graph.objects.size (Nat.le_refl _) (by simp)
  constructor
  · rintro holder child above ⟨position, held⟩
    rcases Option.bind_eq_some_iff.mp held with ⟨spec, object, slot⟩
    exact (grows.fresh holder spec above object position _ slot).1.above child rfl
  · intro holder position reference above held id home resolved
    have found :
        (unitScope workspace units includes).lookup reference.kind reference.name = some id := by
      rw [Scope.lookup, resolved]
      rfl
    rcases Scope.means_iff.mp (Scope.lookup_eq_some_iff.mp found) with
      own | ⟨_, key, rest, inner, name, _, _, included, meant⟩
    · rw [Scope.resolve_of_own own] at resolved
      cases resolved
      exact Or.inr ⟨rfl, size_le_installAll units workspace.graph _
        ((get?_unit_iff compiled distinct).mp own)⟩
    · left
      have same : (install workspace.graph units).2.linked = workspace.graph.linked := grows.linked
      rcases mentioned_of_held compiled above held with ⟨definition, member, mentioned⟩
      have entry := Record.mem_of_mem_ofEntries (Record.mem_of_get? included)
      rw [same]
      exact supplied definition member reference mentioned _ entry rest id name meant

/-- If all that definitions mention resolves, so does all that their objects
hold. -/
theorem resolvable_unit (compiled : List.Forall₂ Compiles definitions units)
    (distinct : (definitions.map (·.name)).Nodup)
    (identifiers : ∀ entry ∈ includes, Name.isIdentifier entry.1 = true)
    (resolves : ∀ definition ∈ definitions, ∀ reference ∈ definition.references,
      Resolves definitions includes reference) :
    Resolvable (unitScope workspace units includes) workspace.graph.objects.size
      (install workspace.graph units).2 := by
  intro id position reference above held
  rcases mentioned_of_held compiled above held with ⟨definition, member, mentioned⟩
  rcases (exists_means_unit_iff compiled distinct identifiers reference).mpr
    (resolves definition member reference mentioned) with ⟨target, meant⟩
  have found := Scope.lookup_eq_some_iff.mpr meant
  rcases Option.map_eq_some_iff.mp found with ⟨_, resolved, _⟩
  rw [resolved]
  rfl

/-- What is linked after objects were made for definitions is what these
declare. -/
theorem forall₂_declares {fresh graph : Graph} {scope : Scope}
    {installed : List (String × EntityKind × ObjectId)}
    (carries : Carries fresh graph Written scope.Denotes (Turns scope graph))
    (installs : List.Forall₂ (Installs fresh Written) definitions installed)
    (linked : ∀ entry ∈ installed, entry.2.2 ∈ graph.linked) :
    List.Forall₂ (graph.Declares scope.Denotes) definitions (installed.map (·.2.2)) := by
  induction installs with
  | nil => exact List.Forall₂.nil
  | cons here _ hypothesis =>
      have marked := linked _ List.mem_cons_self
      have others := hypothesis fun entry member => linked entry (List.mem_cons_of_mem _ member)
      exact List.Forall₂.cons (here.2.2.carry carries ⟨decide_eq_true marked, Or.inl rfl⟩) others

end Module

namespace Session

open IdlLinker.Module

variable {session : Session} {scope : Scope} {definitions : List Definition}
  {units : List (String × CompiledDefinition)} {includes : Includes}

theorem Standing.mem_scopes (standing : session.Standing)
    (layered : Layered session.modules scope) : scope ∈ session.scopes := by
  cases layered with
  | mk member _ => exact standing.known _ member

/-- What names mean in the scopes of modules is linked. -/
theorem Standing.mem_linked (standing : session.Standing) (layered : Layered session.modules scope)
    {kind : EntityKind} {name : String} {id : ObjectId} (meant : Scope.Means kind scope name id) :
    id ∈ session.graph.linked := by
  induction meant with
  | own found =>
      cases layered with
      | mk member _ => exact standing.linked _ member _ ⟨kind, _, found⟩
  | included _ _ _ found _ hypothesis =>
      cases layered with
      | mk _ included => exact hypothesis (included _ _ found)

theorem Standing.supplied (standing : session.Standing)
    (layered : ∀ entry ∈ includes, Layered session.modules entry.2)
    (definitions : List Definition) :
    Supplied session.workspace.graph definitions includes :=
  fun _ _ _ _ entry member _ _ _ meant => standing.mem_linked (layered entry member) meant

/-- Where what it refers to in its includes is linked, the objects of a unit are
linked in the unit, and that fails only at a reference that does not resolve. -/
theorem Sound.linking_unit (sound : session.Sound)
    (known : ∀ entry ∈ includes, entry.2 ∈ session.scopes)
    (supplied : Supplied session.workspace.graph definitions includes)
    (compiled : List.Forall₂ Compiles definitions units)
    (distinct : (definitions.map (·.name)).Nodup) :
    Graph.Linking (· ∈ session.scopes ++ [unitScope session.workspace units includes])
        (unitScope session.workspace units includes) session.workspace.graph.objects.size
        (Module.install session.workspace.graph units).2
        (unitLinked session.workspace units includes).graph ∧
      ∀ error, (unitLinked session.workspace units includes).outcome = .error error →
        Graph.Dangles (unitScope session.workspace units includes)
          session.workspace.graph.objects.size (Module.install session.workspace.graph units).2
          error := by
  have made := sound.unit units known
  have enclosed := enclosed_unit compiled distinct supplied
  apply linkAll_linking (Graph.Linking.refl made (by simp) enclosed)
  intro entry member
  exact size_le_installAll units session.workspace.graph entry (mem_linkOrder_iff.mp member)

/-- Over scopes of modules, the objects of a unit are linked in the unit. -/
theorem Sound.unit_linking (sound : session.Sound) (standing : session.Standing)
    (layered : ∀ entry ∈ includes, Layered session.modules entry.2)
    (compiled : List.Forall₂ Compiles definitions units)
    (distinct : (definitions.map (·.name)).Nodup) :
    Graph.Linking (· ∈ session.scopes ++ [unitScope session.workspace units includes])
        (unitScope session.workspace units includes) session.workspace.graph.objects.size
        (Module.install session.workspace.graph units).2
        (unitLinked session.workspace units includes).graph ∧
      (Graph.Resolvable (unitScope session.workspace units includes)
          session.workspace.graph.objects.size (Module.install session.workspace.graph units).2 →
        (unitLinked session.workspace units includes).outcome = .ok ()) := by
  have known := fun entry member => standing.mem_scopes (layered entry member)
  have supplied := standing.supplied layered definitions
  rcases sound.linking_unit known supplied compiled distinct with ⟨linking, dangles⟩
  exact ⟨linking, fun resolvable => resolvable.eq_ok dangles⟩

/-- A unit whose objects are linked without an error makes a module. -/
theorem Sound.made (sound : session.Sound) (standing : session.Standing)
    (layered : ∀ entry ∈ includes, Layered session.modules entry.2)
    (compiled : List.Forall₂ Compiles definitions units)
    (distinct : (definitions.map (·.name)).Nodup) {module : Module}
    (ended : (Module.assemble session.workspace units includes).outcome = .ok module) :
    ∃ ids, Made (Module.assemble session.workspace units includes).workspace.graph definitions
      includes module ids := by
  rcases assemble_eq_ok_iff.mp ended with ⟨linked, rfl⟩
  rcases sound.unit_linking standing layered compiled distinct with ⟨linking, _⟩
  have installs := forall₂_installs compiled session.workspace.graph
  have fresh := sound.unit units fun entry member => standing.mem_scopes (layered entry member)
  have marked := mem_linked_unit fresh (by simp) linked
  have carries := linking.bound.carries linking.sound.closed linking.shapes
  refine ⟨(Module.install session.workspace.graph units).1.map (·.2.2), ?_, ?_, ?_, ?_, ?_, rfl⟩
  · exact forall₂_declares carries installs marked
  · intro id member other reaches
    rcases List.mem_map.mp member with ⟨entry, entryMember, rfl⟩
    exact linking.sound.closed.mem_linked_of_reaches (marked entry entryMember) reaches
  · exact ofKind_eq_entries installs .type
  · exact ofKind_eq_entries installs .service
  · intro kind
    exact (table_unit compiled distinct kind).trans (ofKind_eq_entries installs kind)

end Session

namespace Module

theorem exists_units {definitions : List Definition}
    (compiles : ∀ definition ∈ definitions, ∃ compiled, definition.compile.outcome = .ok compiled) :
    ∃ units, List.Forall₂ Compiles definitions units := by
  induction definitions with
  | nil => exact ⟨[], List.Forall₂.nil⟩
  | cons definition rest hypothesis =>
      rcases compiles definition List.mem_cons_self with ⟨compiled, ended⟩
      rcases hypothesis fun other member => compiles other (List.mem_cons_of_mem _ member) with
        ⟨units, others⟩
      exact ⟨(definition.name, compiled) :: units, List.Forall₂.cons ⟨rfl, ended⟩ others⟩

theorem badInclude?_eq_none {includes : Includes}
    (identifiers : ∀ entry ∈ includes, Name.isIdentifier entry.1 = true) :
    badInclude? includes = none := by
  rw [badInclude?, List.find?_eq_none]
  intro name member
  rcases List.mem_map.mp member with ⟨entry, entryMember, rfl⟩
  simp [identifiers entry (Record.mem_of_mem_ofEntries entryMember)]

theorem compile_of_units {workspace : Workspace} {definitions : List Definition}
    {includes : Includes} {units : List (String × CompiledDefinition)}
    (identifiers : ∀ entry ∈ includes, Name.isIdentifier entry.1 = true)
    (compiled : (compileAfter {} definitions).outcome = .ok units) :
    (compile workspace definitions includes).workspace =
        (assemble workspace units includes).workspace ∧
      (compile workspace definitions includes).outcome =
        (assemble workspace units includes).outcome := by
  constructor <;> simp only [compile, badInclude?_eq_none identifiers, compiled]

/-- A unit becomes a module when its names are distinct, its definitions
compile, and what they compile to is assembled. -/
theorem compile_eq_ok_iff {workspace : Workspace} {definitions : List Definition}
    {includes : Includes} {module : Module}
    (identifiers : ∀ entry ∈ includes, Name.isIdentifier entry.1 = true) :
    (compile workspace definitions includes).outcome = .ok module ↔
      (definitions.map (·.name)).Nodup ∧ ∃ units, List.Forall₂ Compiles definitions units ∧
        (compile workspace definitions includes).workspace =
          (assemble workspace units includes).workspace ∧
        (assemble workspace units includes).outcome = .ok module := by
  constructor
  · intro ended
    rcases compile_cases workspace definitions includes with
      ⟨journal, error, refused⟩ | ⟨units, journal, _, compiled, assembled⟩
    · rw [refused] at ended
      cases ended
    · rw [assembled] at ended ⊢
      rcases compileAfter_empty_eq_ok_iff.mp compiled with ⟨distinct, each⟩
      exact ⟨distinct, units, each, rfl, ended⟩
  · rintro ⟨distinct, units, each, _, ended⟩
    have compiled := compileAfter_empty_eq_ok_iff.mpr ⟨distinct, each⟩
    rw [(compile_of_units identifiers compiled).2, ended]

/-- After any calls, over scopes of modules made before, a unit becomes a module
just when its names are distinct, each of its definitions compiles, and each
reference in them resolves; and the module is made of these definitions. -/
theorem compile_ok_iff_resolves (calls : List Call) (definitions : List Definition)
    (includes : Includes) (identifiers : ∀ entry ∈ includes, Name.isIdentifier entry.1 = true)
    (layered : ∀ entry ∈ includes, Layered (Session.run calls).modules entry.2) :
    ((∃ module,
        (compile (Session.run calls).workspace definitions includes).outcome = .ok module) ↔
      (definitions.map (·.name)).Nodup ∧
      (∀ definition ∈ definitions, ∃ compiled, definition.compile.outcome = .ok compiled) ∧
      ∀ definition ∈ definitions, ∀ reference ∈ definition.references,
        Resolves definitions includes reference) ∧
    ∀ module, (compile (Session.run calls).workspace definitions includes).outcome = .ok module →
      ∃ ids, Made (compile (Session.run calls).workspace definitions includes).workspace.graph
        definitions includes module ids := by
  have sound := Session.sound_run calls
  have standing := Session.standing_run calls
  refine ⟨⟨?_, ?_⟩, ?_⟩
  · rintro ⟨module, ended⟩
    rcases (compile_eq_ok_iff identifiers).mp ended with ⟨distinct, units, each, _, assembled⟩
    refine ⟨distinct, ?_, ?_⟩
    · intro definition member
      rcases exists_right_of_forall₂ each member with ⟨unit, _, _, compiled⟩
      exact ⟨unit.2, compiled⟩
    · intro definition member reference mentioned
      rcases sound.made standing layered each distinct assembled with ⟨ids, made⟩
      rcases exists_right_of_forall₂ made.declares member with ⟨id, _, declares⟩
      rcases declares.exists_meant mentioned with ⟨slot, target, meant, _⟩
      rw [(assemble_eq_ok_iff.mp assembled).2] at meant
      exact (exists_means_unit_iff each distinct identifiers reference).mp ⟨target, meant⟩
  · rintro ⟨distinct, compiles, resolves⟩
    rcases exists_units compiles with ⟨units, each⟩
    have succeeds := (sound.unit_linking standing layered each distinct).2
      (resolvable_unit each distinct identifiers resolves)
    have compiled := compileAfter_empty_eq_ok_iff.mpr ⟨distinct, each⟩
    rw [(compile_of_units identifiers compiled).2]
    exact ⟨_, assemble_eq_ok_iff.mpr ⟨succeeds, rfl⟩⟩
  · intro module ended
    rcases (compile_eq_ok_iff identifiers).mp ended with ⟨distinct, units, each, same, assembled⟩
    rw [same]
    exact sound.made standing layered each distinct assembled

/-- A unit of one struct. -/
def pointUnit : List Call :=
  [.compileModule [.struct ⟨.struct, "Point", [], .ofInt 1⟩] []]

/-- The scope of the struct. -/
def pointScope : Scope := { identity := 1, types := [("Point", 0)] }

/-- A struct that holds the one of another unit and, in a list, itself. -/
def lineUnit : List Definition :=
  [.struct ⟨.struct, "Line",
    [{ name := "start", type := .named "inc.Point" (.ofInt 2), line := .ofInt 2 },
      { name := "rest", type := .list (.named "Line" (.ofInt 3)) (.ofInt 3), line := .ofInt 3 }],
    .ofInt 1⟩]

theorem layered_pointScope : Layered (Session.run pointUnit).modules pointScope := by
  apply @Layered.mk _ ⟨[("Point", 0)], [], pointScope⟩
  · exact List.mem_singleton_self _
  · intro name inner found
    cases found

theorem compile_ok_lineUnit :
    ∃ module, (compile (Session.run pointUnit).workspace lineUnit
        [("inc", pointScope)]).outcome = .ok module ∧
      ∃ ids, Made (compile (Session.run pointUnit).workspace lineUnit
        [("inc", pointScope)]).workspace.graph lineUnit [("inc", pointScope)] module ids := by
  have succeeds := compile_ok_iff_resolves pointUnit lineUnit [("inc", pointScope)] (by decide)
    (by simpa using layered_pointScope)
  have compiles : ∀ definition ∈ lineUnit, ∃ compiled,
      definition.compile.outcome = .ok compiled := by
    intro definition member
    rw [List.mem_singleton.mp member]
    exact ⟨_, rfl⟩
  have resolves : ∀ definition ∈ lineUnit, ∀ reference ∈ definition.references,
      Resolves lineUnit [("inc", pointScope)] reference := by
    intro definition member reference mentioned
    rw [List.mem_singleton.mp member] at mentioned
    rcases List.mem_cons.mp mentioned with rfl | later
    · exact @Resolves.included _ _ _ "inc" "Point" pointScope 0 rfl (by decide) rfl
        (Scope.Means.own rfl)
    · rw [List.mem_singleton.mp later]
      exact Resolves.own (List.mem_singleton_self _) rfl rfl
  rcases succeeds.1.mpr ⟨by decide, compiles, resolves⟩ with ⟨module, ended⟩
  exact ⟨module, ended, succeeds.2 module ended⟩

end Module

end IdlLinker
