import IdlLinker.Proofs.Traces
import IdlLinker.Proofs.Turns

/-!
# Which error comes first, and what is in the journal

A unit is refused for the first include name that is no identifier; otherwise at
its first definition that cannot follow those before it; and only when all of
them compile for the first object, types before services, that does not link.
The journal tells what was done up to there, in order, and no more, and so do the
lines that a logger writes.
-/

namespace IdlLinker

/-- How linking an object in a scope ends, after other objects were asked for. -/
abbrev Ending := Graph → Scope → List ObjectId → ObjectId → Except CompileError Unit

namespace Ending

/-- What is left of a graph after objects were linked one after another. -/
def linkedAfter (graph : Graph) (scope : Scope) (ids : List ObjectId) : Graph :=
  ids.foldl (fun linked id => (linked.linkObject scope id).graph) graph

/-- An object is linked in its turn, when the others were linked before it. -/
def inTurn : Ending := fun graph scope before id =>
  ((linkedAfter graph scope before).linkObject scope id).outcome

/-- An object is linked alone, whatever comes before it. -/
def alone : Ending := fun graph scope _ id => (graph.linkObject scope id).outcome

end Ending

namespace Module

open IdlLinker.Graph

/-- The names of included scopes, in the order of their record. -/
def includeNames (includes : Includes) : List String := (Record.ofEntries includes).map (·.1)

/-- What linking a unit starts from: a graph that has, besides all that was
there, an object for each definition as it was compiled, and a scope that
registers these objects and includes what is included. -/
structure Assembled (workspace : Workspace) (definitions : List Definition) (includes : Includes)
    (fresh : Graph) (scope : Scope) (ids : List ObjectId) : Prop where
  declares : List.Forall₂ (fresh.Declares Written) definitions ids
  kept : ∀ id < workspace.graph.objects.size, fresh.object? id = workspace.graph.object? id
  linked : fresh.linked = workspace.graph.linked
  registered : ∀ kind, scope.table kind = entries kind definitions ids
  included : scope.includes = Record.ofEntries includes

/-- The objects of a unit in the order of linking: types, then services, each in
the order of their definitions. -/
def unitOrder (definitions : List Definition) (ids : List ObjectId) :
    List (String × EntityKind × ObjectId) :=
  linkOrder (entries .type definitions ids) (entries .service definitions ids)

/-- The objects that are made for the definitions of a unit. -/
def unitIds (workspace : Workspace) (units : List (String × CompiledDefinition)) : List ObjectId :=
  (install workspace.graph units).1.map (·.2.2)

/-- Every object of an order links. -/
def AllLink (ends : List ObjectId → ObjectId → Except CompileError Unit)
    (order : List (String × EntityKind × ObjectId)) : Prop :=
  ∀ before entry after, order = before ++ entry :: after →
    ends (before.map (·.2.2)) entry.2.2 = .ok ()

/-- The first object of an order that does not link. -/
structure FirstUnlinked (ends : List ObjectId → ObjectId → Except CompileError Unit)
    (order before : List (String × EntityKind × ObjectId)) (entry : String × EntityKind × ObjectId)
    (error : CompileError) : Prop where
  split : ∃ after, order = before ++ entry :: after
  linked : AllLink ends before
  fails : ends (before.map (·.2.2)) entry.2.2 = .error error

/-- What is written about an object that links. -/
def linkedEntry (entry : String × EntityKind × ObjectId) : JournalEntry :=
  .specLinked entry.1 entry.2.1

/-- What is written before anything is linked: what is to be said about each
definition, and then that the scope is built. -/
def compiledJournal (definitions : List Definition) (includes : Includes) : Journal :=
  definitions.flatMap Definition.journal ++
    [.scopeBuilt (definitions.countP (·.kind == .type)) (definitions.countP (·.kind == .service))
      (includeNames includes)]

/-- How compiling and linking a unit ends, and its journal by then. -/
inductive Traced (ends : Ending) (workspace : Workspace) (definitions : List Definition)
    (includes : Includes) : Except ModuleError Module → Journal → Prop
  | misnamed {name : String}
      (first : FirstFailing (Name.isIdentifier · = true) (includeNames includes) name) :
      Traced ends workspace definitions includes (.error (.includeName name)) []
  | stopped {error : CompileError} {journal : Journal}
      (named : ∀ name ∈ includeNames includes, Name.isIdentifier name = true)
      (stops : Stops definitions error journal) :
      Traced ends workspace definitions includes (.error (.compile error)) journal
  | unlinked {fresh : Graph} {scope : Scope} {ids : List ObjectId}
      {before : List (String × EntityKind × ObjectId)} {entry : String × EntityKind × ObjectId}
      {error : CompileError}
      (named : ∀ name ∈ includeNames includes, Name.isIdentifier name = true)
      (valid : Valid definitions)
      (assembled : Assembled workspace definitions includes fresh scope ids)
      (first : FirstUnlinked (ends fresh scope) (unitOrder definitions ids) before entry error) :
      Traced ends workspace definitions includes (.error (.compile error))
        (compiledJournal definitions includes ++ before.map linkedEntry)
  | made {fresh : Graph} {module : Module} {ids : List ObjectId}
      (named : ∀ name ∈ includeNames includes, Name.isIdentifier name = true)
      (valid : Valid definitions)
      (assembled : Assembled workspace definitions includes fresh module.scope ids)
      (types : module.types = entries .type definitions ids)
      (services : module.services = entries .service definitions ids)
      (linked : AllLink (ends fresh module.scope) (unitOrder definitions ids)) :
      Traced ends workspace definitions includes (.ok module)
        (compiledJournal definitions includes ++ (unitOrder definitions ids).map linkedEntry)

/-! ## What a logger writes -/

/-- The lines about a definition that compiles: its warnings, and then that it is
compiled. -/
def definitionLines (label : String) (definition : Definition) : List (LogLevel × String) :=
  (Logger.labelled label).lines definition.warnings ++
    [(.debug, label ++ " " ++ ("compiled " ++ definition.kindWord ++ " \"" ++ definition.name ++
      "\" (line " ++ definition.line.text ++ ")"))]

/-- The line about the scope of a unit. -/
def scopeLine (label : String) (definitions : List Definition) (includes : Includes) :
    LogLevel × String :=
  (.debug, label ++ " " ++ ("scope built with " ++
    toString (definitions.countP (·.kind == .type)) ++ " type(s), " ++
    toString (definitions.countP (·.kind == .service)) ++ " service(s)" ++
    if (includeNames includes).isEmpty then ""
    else " over includes " ++ ", ".intercalate (includeNames includes)))

/-- The line about an object that links, by its name and its kind. -/
def linkedLine (label : String) (linked : String × EntityKind) : LogLevel × String :=
  (.debug, label ++ " " ++ ("linked " ++ linked.2.word ++ " \"" ++ linked.1 ++ "\""))

/-- The names of one kind that a unit defines. -/
def namesOf (kind : EntityKind) (definitions : List Definition) : List String :=
  (definitions.filter (·.kind == kind)).map (·.name)

/-- What a unit defines, in the order of linking. -/
def inLinkOrder (definitions : List Definition) : List (String × EntityKind) :=
  (namesOf .type definitions).map (·, .type) ++ (namesOf .service definitions).map (·, .service)

/-- What a labelled logger has written when a unit is done with.  A definition
that is refused is only warned about; of what is linked, only what comes before the
first object that does not link is written about. -/
inductive Logged (label : String) (definitions : List Definition) (includes : Includes) :
    Except ModuleError Module → List (LogLevel × String) → Prop
  | misnamed {name : String} : Logged label definitions includes (.error (.includeName name)) []
  | stopped {error : CompileError} {before after : List Definition} {definition : Definition}
      {warned : List (LogLevel × String)} (split : definitions = before ++ definition :: after)
      (warns : ∀ line ∈ warned, line.1 = .warn) :
      Logged label definitions includes (.error (.compile error))
        (before.flatMap (definitionLines label) ++ warned)
  | unlinked {error : CompileError} {before after : List (String × EntityKind)}
      {failing : String × EntityKind}
      (split : inLinkOrder definitions = before ++ failing :: after) :
      Logged label definitions includes (.error (.compile error))
        (definitions.flatMap (definitionLines label) ++
          scopeLine label definitions includes :: before.map (linkedLine label))
  | made {module : Module} :
      Logged label definitions includes (.ok module)
        (definitions.flatMap (definitionLines label) ++
          scopeLine label definitions includes :: (inLinkOrder definitions).map (linkedLine label))

/-! ## Objects in order -/

section Order

variable {ends other : List ObjectId → ObjectId → Except CompileError Unit}
  {order before rest : List (String × EntityKind × ObjectId)}
  {entry : String × EntityKind × ObjectId} {error : CompileError}

theorem allLink_nil : AllLink ends [] := by
  intro before entry after same
  cases before <;> cases same

theorem allLink_cons : AllLink ends (entry :: rest) ↔
    ends [] entry.2.2 = .ok () ∧ AllLink (fun before => ends (entry.2.2 :: before)) rest := by
  constructor
  · intro all
    refine ⟨all [] entry rest rfl, fun before other after same => ?_⟩
    exact all (entry :: before) other after (congrArg (entry :: ·) same)
  · rintro ⟨first, later⟩ before other after same
    cases before with
    | nil =>
        cases same
        exact first
    | cons _ before =>
        cases same
        exact later before other after rfl

/-- Two ways of linking agree on every object of an order. -/
def Agree (ends other : List ObjectId → ObjectId → Except CompileError Unit)
    (order : List (String × EntityKind × ObjectId)) : Prop :=
  ∀ before entry after, order = before ++ entry :: after →
    other (before.map (·.2.2)) entry.2.2 = ends (before.map (·.2.2)) entry.2.2

theorem AllLink.congr (all : AllLink ends order) (agree : Agree ends other order) :
    AllLink other order :=
  fun before entry after same => (agree before entry after same).trans (all before entry after same)

theorem FirstUnlinked.congr (first : FirstUnlinked ends order before entry error)
    (agree : Agree ends other order) : FirstUnlinked other order before entry error := by
  rcases first.split with ⟨after, rfl⟩
  refine ⟨⟨after, rfl⟩, first.linked.congr ?_, (agree before entry after rfl).trans first.fails⟩
  rintro earlier here later rfl
  exact agree earlier here (later ++ entry :: after) (by simp)

/-- Objects linked in order all link in their turn, and are all written about, or
the first that does not tells the error, and those before it are written
about. -/
theorem linkAll_cases (scope : Scope) (order : List (String × EntityKind × ObjectId))
    (graph : Graph) :
    AllLink (Ending.inTurn graph scope) order ∧ (linkAll scope order graph).2.outcome = .ok () ∧
        (linkAll scope order graph).1 = order.map linkedEntry ∨
      ∃ before entry error, FirstUnlinked (Ending.inTurn graph scope) order before entry error ∧
        (linkAll scope order graph).2.outcome = .error error ∧
          (linkAll scope order graph).1 = before.map linkedEntry := by
  induction order generalizing graph with
  | nil => exact Or.inl ⟨allLink_nil, rfl, rfl⟩
  | cons entry rest hypothesis =>
      rcases entry with ⟨name, kind, id⟩
      cases ended : (graph.linkObject scope id).outcome with
      | error error =>
          refine Or.inr ⟨[], (name, kind, id), error, ⟨⟨rest, rfl⟩, allLink_nil, ended⟩, ?_, ?_⟩
          · rw [linkAll_of_error ended]
          · simp only [linkAll, ended, List.map_nil]
      | ok done =>
          have written : (linkAll scope ((name, kind, id) :: rest) graph).1 =
              .specLinked name kind ::
                (linkAll scope rest (graph.linkObject scope id).graph).1 := by
            simp only [linkAll, ended]
          rw [linkAll_of_ok ended, written]
          rcases hypothesis (graph.linkObject scope id).graph with
            ⟨all, linked, journal⟩ | ⟨before, entry, error, first, failed, journal⟩
          · exact Or.inl ⟨allLink_cons.mpr ⟨ended, all⟩, linked, by rw [journal]; rfl⟩
          · rcases first.split with ⟨after, rfl⟩
            exact Or.inr ⟨(name, kind, id) :: before, entry, error,
              ⟨⟨after, rfl⟩, allLink_cons.mpr ⟨ended, first.linked⟩, first.fails⟩, failed,
              by rw [journal]; rfl⟩

end Order

/-! ## Units -/

variable {definitions : List Definition} {units : List (String × CompiledDefinition)}
  {includes : Includes} {workspace : Workspace}

theorem map_fst_entries (kind : EntityKind) {definitions : List Definition} {ids : List ObjectId}
    (same : definitions.length = ids.length) :
    (entries kind definitions ids).map (·.1) = namesOf kind definitions := by
  induction definitions generalizing ids with
  | nil => rfl
  | cons definition rest hypothesis =>
      cases ids with
      | nil => cases same
      | cons id others =>
          have later := hypothesis (Nat.succ.inj same)
          simp only [entries, namesOf] at later ⊢
          rw [List.zip_cons_cons, List.filterMap_cons, List.filter_cons]
          by_cases here : (definition.kind == kind) = true
          · rw [if_pos here, if_pos here, List.map_cons, List.map_cons, ← later]
          · rw [if_neg here, if_neg here, ← later]

theorem length_entries (kind : EntityKind) {definitions : List Definition} {ids : List ObjectId}
    (same : definitions.length = ids.length) :
    (entries kind definitions ids).length = definitions.countP (·.kind == kind) := by
  have names := congrArg List.length (map_fst_entries kind same)
  rwa [namesOf, List.length_map, List.length_map, ← List.countP_eq_length_filter] at names

/-- The objects and the scope of a unit, before anything of it is linked. -/
theorem assembled_unit (compiled : List.Forall₂ Compiles definitions units)
    (distinct : (definitions.map (·.name)).Nodup) :
    Assembled workspace definitions includes (install workspace.graph units).2
      (unitScope workspace units includes) (unitIds workspace units) := by
  have installs := forall₂_installs compiled workspace.graph
  have grows := installAll_grows (fun _ => True) units workspace.graph 0 (Nat.zero_le _) (by simp)
  refine ⟨?_, fun id earlier => grows.kept id earlier, grows.linked, fun kind => ?_, rfl⟩
  · exact List.forall₂_map_right_iff.mpr (installs.imp fun _ _ made => made.2.2)
  · exact (table_unit compiled distinct kind).trans (ofKind_eq_entries installs kind)

/-- The objects of a unit in the order in which they are linked. -/
theorem linkOrder_unit (compiled : List.Forall₂ Compiles definitions units) :
    linkOrder (ofKind .type (install workspace.graph units).1)
        (ofKind .service (install workspace.graph units).1) =
      unitOrder definitions (unitIds workspace units) := by
  have installs := forall₂_installs compiled workspace.graph
  have objects (kind : EntityKind) : ofKind kind (install workspace.graph units).1 =
      entries kind definitions (unitIds workspace units) :=
    ofKind_eq_entries installs kind
  rw [objects, objects, unitOrder]

/-- After the definitions of a unit, its scope and the objects that link are
written about. -/
theorem journal_assemble (compiled : List.Forall₂ Compiles definitions units) :
    (assemble workspace units includes).journal =
      .scopeBuilt (definitions.countP (·.kind == .type)) (definitions.countP (·.kind == .service))
          (includeNames includes) ::
        (linkAll (unitScope workspace units includes)
          (unitOrder definitions (unitIds workspace units))
          (install workspace.graph units).2).1 := by
  have installs := forall₂_installs compiled workspace.graph
  have sizes : definitions.length = (unitIds workspace units).length := by
    rw [unitIds, List.length_map]
    exact installs.length_eq
  have counts (kind : EntityKind) : (ofKind kind (install workspace.graph units).1).length =
      definitions.countP (·.kind == kind) := by
    rw [← length_entries kind sizes]
    exact congrArg List.length (ofKind_eq_entries installs kind)
  rw [← linkOrder_unit compiled, ← counts, ← counts]
  rfl

/-- The error of an object that does not link is that of the unit. -/
theorem assemble_eq_error {error : CompileError}
    (failed : (unitLinked workspace units includes).outcome = .error error) :
    (assemble workspace units includes).outcome = .error (.compile error) := by
  simp only [assemble]
  split
  · next linked =>
      change (unitLinked workspace units includes).outcome = .ok () at linked
      rw [failed] at linked
      cases linked
  · next other ended =>
      change (unitLinked workspace units includes).outcome = .error other at ended
      rw [failed] at ended
      cases ended
      rfl

/-- The objects of a unit that are made for valid definitions, in any way of
linking that agrees on them with linking them in turn. -/
theorem traced_assemble {ends : Ending}
    (named : ∀ name ∈ includeNames includes, Name.isIdentifier name = true)
    (valid : Valid definitions) (compiled : List.Forall₂ Compiles definitions units)
    (agree : Agree
      (Ending.inTurn (install workspace.graph units).2 (unitScope workspace units includes))
      (ends (install workspace.graph units).2 (unitScope workspace units includes))
      (unitOrder definitions (unitIds workspace units))) :
    Traced ends workspace definitions includes (assemble workspace units includes).outcome
      (definitions.flatMap Definition.journal ++ (assemble workspace units includes).journal) := by
  have assembled : Assembled workspace definitions includes _ _ _ :=
    assembled_unit compiled valid.names
  have objects := ofKind_eq_entries (forall₂_installs compiled workspace.graph)
  rw [journal_assemble compiled, ← List.singleton_append, ← List.append_assoc]
  rcases linkAll_cases (unitScope workspace units includes)
    (unitOrder definitions (unitIds workspace units))
    (install workspace.graph units).2 with
    ⟨all, linked, journal⟩ | ⟨before, entry, error, first, failed, journal⟩
  · rw [journal, assemble_eq_ok_iff.mpr ⟨by rw [unitLinked, linkOrder_unit compiled, linked], rfl⟩]
    exact .made named valid assembled (objects .type) (objects .service) (all.congr agree)
  · have refused : (assemble workspace units includes).outcome = .error (.compile error) := by
      rw [← linkOrder_unit compiled] at failed
      exact assemble_eq_error failed
    rw [journal, refused]
    exact .unlinked named valid assembled (first.congr agree)

/-- A unit is traced in any way of linking that agrees on its objects with
linking them in turn. -/
theorem traced_of_agree (ends : Ending)
    (agree : ∀ units, (definitions.map (·.name)).Nodup → List.Forall₂ Compiles definitions units →
      Agree (Ending.inTurn (install workspace.graph units).2 (unitScope workspace units includes))
        (ends (install workspace.graph units).2 (unitScope workspace units includes))
        (unitOrder definitions (unitIds workspace units))) :
    Traced ends workspace definitions includes (compile workspace definitions includes).outcome
      (compile workspace definitions includes).journal := by
  cases bad : badInclude? includes with
  | some name =>
      rcases List.find?_eq_some_iff_append.mp bad with ⟨fails, before, after, split, identifiers⟩
      simp only [compile, bad]
      refine .misnamed ⟨⟨before, after, split, fun other member => ?_⟩, by simpa using fails⟩
      simpa using identifiers other member
  | none =>
      have named : ∀ name ∈ includeNames includes, Name.isIdentifier name = true := by
        simpa [badInclude?, includeNames] using bad
      cases compiled : (compileAfter {} definitions).outcome with
      | error error =>
          simp only [compile, bad, compiled]
          exact .stopped named (stops_of_compileAfter tracks_nil valid_nil compiled)
      | ok units =>
          rcases valid_of_compileAfter tracks_nil valid_nil compiled with ⟨valid, written⟩
          have each := (compileAfter_empty_eq_ok_iff.mp compiled).2
          simp only [compile, bad, compiled]
          rw [written]
          exact traced_assemble named valid each (agree units valid.names each)

/-! ## Written lines -/

theorem level_of_warnings {fields : List Field} :
    ∀ entry ∈ FieldGroup.warnings fields, entry.level = .warn := by
  intro entry member
  rcases List.mem_mapIdx.mp member with ⟨index, _, rfl⟩
  rfl

theorem level_of_functionWarnings {function : Function} :
    ∀ entry ∈ function.warnings, entry.level = .warn := by
  intro entry member
  rcases List.mem_append.mp member with inArguments | inThrows
  · exact level_of_warnings entry inArguments
  · exact level_of_warnings entry inThrows

theorem level_of_groupStops {rules : FieldRules} {fields : List Field} {error : CompileError}
    {journal : Journal} (stops : FieldGroup.Stops rules fields error journal) :
    ∀ entry ∈ journal, entry.level = .warn := by
  rcases stops with ⟨before, field, check, _, _, _, rfl⟩
  exact level_of_warnings

theorem level_of_functionStops {function : Function} {error : CompileError} {journal : Journal}
    (stops : function.Stops error journal) : ∀ entry ∈ journal, entry.level = .warn := by
  rcases stops with ⟨check, _, stops⟩
  cases check with
  | onewayReturn | onewayThrows =>
      rcases stops with ⟨_, rfl⟩
      simp
  | arguments => exact level_of_groupStops stops
  | throws =>
      rcases stops with ⟨inner, stops, rfl⟩
      intro entry member
      rcases List.mem_append.mp member with inArguments | inThrows
      · exact level_of_warnings entry inArguments
      · exact level_of_groupStops stops entry inThrows

/-- A definition that is refused is only warned about. -/
theorem level_of_stops {definition : Definition} {error : CompileError} {journal : Journal}
    (stops : definition.Stops error journal) : ∀ entry ∈ journal, entry.level = .warn := by
  cases definition with
  | struct definition =>
      rcases stops with ⟨cause, _, stops⟩
      exact level_of_groupStops stops
  | typedef definition => exact stops.elim
  | enum definition =>
      rcases stops with ⟨cause, _, _, rfl⟩
      simp
  | service definition =>
      have whole {functions : List Function} :
          ∀ entry ∈ functions.flatMap Function.warnings, entry.level = .warn := by
        intro entry member
        rcases List.mem_flatMap.mp member with ⟨function, _, inside⟩
        exact level_of_functionWarnings entry inside
      rcases stops with ⟨before, function, _, ⟨_, rfl⟩ | ⟨_, inner, ⟨cause, stops, _⟩, rfl⟩⟩
      · exact whole
      · intro entry member
        rcases List.mem_append.mp member with earlier | here
        · exact whole entry earlier
        · exact level_of_functionStops stops entry here

theorem lines_journal (label : String) (definitions : List Definition) :
    (Logger.labelled label).lines (definitions.flatMap Definition.journal) =
      definitions.flatMap (definitionLines label) := by
  rw [Logger.lines_flatMap]
  apply List.flatMap_congr
  intro definition _
  rw [Definition.journal, Logger.lines_append]
  rfl

theorem lines_compiledJournal (label : String) (definitions : List Definition)
    (includes : Includes) :
    (Logger.labelled label).lines (compiledJournal definitions includes) =
      definitions.flatMap (definitionLines label) ++ [scopeLine label definitions includes] := by
  rw [compiledJournal, Logger.lines_append, lines_journal]
  rfl

/-- The objects of a unit are written about as what the unit defines. -/
theorem lines_unitOrder (label : String) {definitions : List Definition} {ids : List ObjectId}
    (same : definitions.length = ids.length) :
    (Logger.labelled label).lines ((unitOrder definitions ids).map linkedEntry) =
      (inLinkOrder definitions).map (linkedLine label) := by
  simp only [unitOrder, linkOrder, inLinkOrder, ← map_fst_entries _ same,
    Logger.lines, List.map_append, List.map_map]
  rfl

/-- However a unit ends, its journal is written in this way. -/
theorem Traced.logged {ends : Ending} {workspace : Workspace} {definitions : List Definition}
    {includes : Includes} {outcome : Except ModuleError Module} {journal : Journal}
    (traced : Traced ends workspace definitions includes outcome journal) (label : String) :
    Logged label definitions includes outcome ((Logger.labelled label).lines journal) := by
  cases traced with
  | misnamed first => exact .misnamed
  | stopped named stops =>
      rcases stops with ⟨before, definition, breaks, repeated | ⟨_, inner, stops, rfl⟩⟩
      · rcases breaks.split with ⟨after, split⟩
        rw [repeated.2, lines_journal, ← List.append_nil (List.flatMap _ _)]
        exact .stopped split nofun
      · rcases breaks.split with ⟨after, split⟩
        rw [Logger.lines_append, lines_journal]
        refine .stopped split fun line member => ?_
        rcases List.mem_map.mp member with ⟨entry, inside, rfl⟩
        exact level_of_stops stops entry inside
  | unlinked named valid assembled first =>
      rcases first.split with ⟨after, split⟩
      have all := lines_unitOrder label assembled.declares.length_eq
      rw [split, List.map_append, Logger.lines_append] at all
      rcases List.map_eq_append_iff.mp all.symm with ⟨earlier, others, parts, written, rest⟩
      rcases List.map_eq_cons_iff.mp rest with ⟨failing, later, rfl, _⟩
      rw [Logger.lines_append, lines_compiledJournal, ← written, List.append_assoc]
      exact .unlinked parts
  | made named valid assembled types services linked =>
      rw [Logger.lines_append, lines_compiledJournal,
        lines_unitOrder label assembled.declares.length_eq, List.append_assoc]
      exact .made

/-- What a labelled logger writes while a unit is compiled and linked, whatever
was there before. -/
theorem compile_logged (workspace : Workspace) (definitions : List Definition)
    (includes : Includes) (label : String) :
    Logged label definitions includes (compile workspace definitions includes).outcome
      ((Logger.labelled label).lines (compile workspace definitions includes).journal) :=
  (traced_of_agree Ending.inTurn fun _ _ _ _ _ _ _ => rfl).logged label

end Module

/-! ## Objects linked alone -/

namespace Graph

variable {family : Scope → Prop} {scope : Scope} {base : Nat} {fresh graph : Graph}

theorem Linking.linkedAfter (linking : Linking family scope base fresh graph) {ids : List ObjectId}
    (above : ∀ id ∈ ids, base ≤ id) :
    Linking family scope base fresh (Ending.linkedAfter graph scope ids) := by
  induction ids generalizing graph with
  | nil => exact linking
  | cons id rest hypothesis =>
      exact hypothesis (linking.linkObject (above id List.mem_cons_self)).1
        fun other member => above other (List.mem_cons_of_mem _ member)

end Graph

namespace Session

open IdlLinker.Module

variable {session : Session} {definitions : List Definition}
  {units : List (String × CompiledDefinition)} {includes : Includes}

/-- Over scopes of modules, the scope of a unit keeps linked what it includes. -/
theorem Standing.founded_unit (standing : session.Standing)
    (layered : ∀ entry ∈ includes, Layered session.modules entry.2)
    (units : List (String × CompiledDefinition)) :
    (Module.install session.workspace.graph units).2.Founded
      (unitScope session.workspace units includes) := by
  intro kind name id home resolved
  have found : (unitScope session.workspace units includes).lookup kind name = some id := by
    rw [Scope.lookup, resolved]
    rfl
  rcases Scope.means_iff.mp (Scope.lookup_eq_some_iff.mp found) with
    own | ⟨_, key, rest, inner, _, _, _, included, meant⟩
  · rw [Scope.resolve_of_own own] at resolved
    cases resolved
    exact Or.inr rfl
  · have entry := Record.mem_of_mem_ofEntries (Record.mem_of_get? included)
    have grows := installAll_grows (fun _ => True) units session.workspace.graph 0 (Nat.zero_le _)
      (by simp)
    have same : (Module.install session.workspace.graph units).2.linked =
      session.workspace.graph.linked := grows.linked
    rw [same]
    exact Or.inl (standing.mem_linked (layered _ entry) meant)

/-- Over scopes of modules, each object of a unit links in its turn as it does
alone. -/
theorem Sound.agree_alone (sound : session.Sound) (standing : session.Standing)
    (layered : ∀ entry ∈ includes, Layered session.modules entry.2)
    (distinct : (definitions.map (·.name)).Nodup)
    (compiled : List.Forall₂ Compiles definitions units) :
    Agree
      (Ending.inTurn (Module.install session.workspace.graph units).2
        (unitScope session.workspace units includes))
      (Ending.alone (Module.install session.workspace.graph units).2
        (unitScope session.workspace units includes))
      (unitOrder definitions (unitIds session.workspace units)) := by
  intro before entry after split
  have made := sound.unit units fun entry member => standing.mem_scopes (layered entry member)
  have enclosed := enclosed_unit compiled distinct (standing.supplied layered definitions)
  have start := Graph.Linking.refl made (by simp) enclosed
  have above : ∀ id ∈ before.map (·.2.2), session.workspace.graph.objects.size ≤ id := by
    intro id member
    rcases List.mem_map.mp member with ⟨earlier, earlierMember, rfl⟩
    apply size_le_installAll units session.workspace.graph earlier (mem_linkOrder_iff.mp _)
    rw [← linkOrder_unit compiled] at split
    exact split ▸ List.mem_append_left _ earlierMember
  exact ((start.linkedAfter above).outcome_eq made (standing.founded_unit layered units) _).symm

end Session

namespace Module

/-- A unit compiled after any calls is traced with its objects linked in turn.
Over scopes of modules each of them links in its turn as it does alone, so the
first that does not link is the first that would not link by itself. -/
theorem compile_traced (calls : List Call) (definitions : List Definition) (includes : Includes) :
    Traced Ending.inTurn (Session.run calls).workspace definitions includes
        (compile (Session.run calls).workspace definitions includes).outcome
        (compile (Session.run calls).workspace definitions includes).journal ∧
      ((∀ entry ∈ includes, Layered (Session.run calls).modules entry.2) →
        Traced Ending.alone (Session.run calls).workspace definitions includes
          (compile (Session.run calls).workspace definitions includes).outcome
          (compile (Session.run calls).workspace definitions includes).journal) := by
  constructor
  · exact traced_of_agree _ fun _ _ _ _ _ _ _ => rfl
  · intro layered
    exact traced_of_agree _ fun _ distinct compiled =>
      (Session.sound_run calls).agree_alone (Session.standing_run calls) layered distinct compiled

/-- Three structs: the first holds the second, so that this is linked before its
turn, and the third names a struct that is not there. -/
def nestedStructs : List Definition :=
  [.struct ⟨.struct, "A",
      [{ name := "b", type := .named "B" (.ofInt 2), line := .ofInt 2 }], .ofInt 1⟩,
    .struct ⟨.struct, "B", [], .ofInt 3⟩,
    .struct ⟨.struct, "C",
      [{ id := some (.ofInt 1), name := "m", type := .named "inc.Missing" (.ofInt 5),
         line := .ofInt 5 }], .ofInt 4⟩]

/-- The second struct is written about once, in its turn, and the third fails. -/
theorem compile_traced_nestedStructs :
    Traced Ending.alone (Session.run pointUnit).workspace nestedStructs [("inc", pointScope)]
        (compile (Session.run pointUnit).workspace nestedStructs [("inc", pointScope)]).outcome
        (compile (Session.run pointUnit).workspace nestedStructs [("inc", pointScope)]).journal ∧
      (compile (Session.run pointUnit).workspace nestedStructs [("inc", pointScope)]).outcome =
          .error (.compile (.wrapped .link "C" (.unresolvedReference "inc.Missing" (.ofInt 5)))) ∧
        (compile (Session.run pointUnit).workspace nestedStructs [("inc", pointScope)]).journal =
          [.warning "field \"b\" has no explicit id; assigned id -1" (.ofInt 2),
            .definitionCompiled "A" "struct" (.ofInt 1),
            .definitionCompiled "B" "struct" (.ofInt 3),
            .definitionCompiled "C" "struct" (.ofInt 4), .scopeBuilt 3 0 ["inc"],
            .specLinked "A" .type, .specLinked "B" .type] :=
  ⟨(compile_traced pointUnit nestedStructs [("inc", pointScope)]).2
    (by simpa using layered_pointScope), rfl, rfl⟩

end Module

end IdlLinker
