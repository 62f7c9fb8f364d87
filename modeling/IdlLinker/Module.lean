import IdlLinker.Compile.Definition
import IdlLinker.Graph.Install
import IdlLinker.Graph.Link
import IdlLinker.Journal

/-!
# Modules

A module is one unit compiled and linked.  All its definitions are compiled
first, so they may mention each other in any order; then the unit's scope is
built over its includes; then every type and every service is linked against
that scope, in declaration order.  The first error ends the work.
-/

namespace IdlLinker

/-- The graph of all objects made so far, and how many scopes were made. -/
structure Workspace where
  graph : Graph := {}
  scopeCount : Nat := 0

/-- A unit compiled and linked. -/
structure Module where
  types : List (String × ObjectId)
  services : List (String × ObjectId)
  scope : Scope

/-- Why a unit does not become a module. -/
inductive ModuleError
  | includeName (name : String)
  | compile (error : CompileError)
  deriving DecidableEq

/-- The text of an error. -/
def ModuleError.message : ModuleError → String
  | .includeName name => "include name \"" ++ name ++ "\" must be an identifier."
  | .compile error => error.message

/-- What compiling a unit leaves behind, with its result or error. -/
structure ModuleRun where
  journal : Journal
  workspace : Workspace
  outcome : Except ModuleError Module

/-- Included scopes by name. -/
abbrev Includes := List (String × Scope)

namespace Workspace

/-- Make a scope of objects and included scopes. -/
def createScope (workspace : Workspace) (types services : List ObjectId)
    (includes : Includes) : Scope × Workspace :=
  let scope : Scope :=
    { identity := workspace.scopeCount + 1
      types := Scope.tableOf workspace.graph types
      services := Scope.tableOf workspace.graph services
      includes := Record.ofEntries includes }
  (scope, { workspace with scopeCount := workspace.scopeCount + 1 })

end Workspace

namespace Module

/-- The first include name that is not an identifier. -/
def badInclude? (includes : Includes) : Option String :=
  ((Record.ofEntries includes).map (·.1)).find? fun name => !Name.isIdentifier name

/-- Compile the remaining definitions of a unit.  A repeated name is refused
before the body is looked at. -/
def compileAfter (names : Namespace) :
    List Definition → Compilation (List (String × CompiledDefinition))
  | [] => return []
  | definition :: rest => do
    let names ← Compilation.ofExcept (names.claim definition.name definition.line)
    let compiled ← definition.compile
    Compilation.log
      (.definitionCompiled definition.name definition.kindWord definition.line)
    let others ← compileAfter names rest
    return (definition.name, compiled) :: others

/-- Make objects of compiled definitions. -/
def installAll :
    List (String × CompiledDefinition) → StateM Graph (List (String × EntityKind × ObjectId))
  | [] => return []
  | (name, compiled) :: rest => do
    let id ← compiled.install
    let others ← installAll rest
    return (name, compiled.kind, id) :: others

/-- The objects made of compiled definitions, and the graph with them. -/
def install (graph : Graph) (units : List (String × CompiledDefinition)) :
    List (String × EntityKind × ObjectId) × Graph :=
  Id.run ((installAll units).run graph)

/-- The installed objects of one kind. -/
def ofKind (kind : EntityKind) (installed : List (String × EntityKind × ObjectId)) :
    List (String × ObjectId) :=
  installed.filterMap fun (name, entity, id) =>
    if entity == kind then some (name, id) else none

/-- Link objects in order, each on its own, up to the first that fails. -/
def linkAll (scope : Scope) : List (String × EntityKind × ObjectId) → Graph →
    Journal × Linked Unit
  | [], graph => ([], ⟨graph, .ok (), []⟩)
  | (name, kind, id) :: rest, graph =>
    let linked := graph.linkObject scope id
    match linked.outcome with
    | .ok () =>
      let (journal, others) := linkAll scope rest linked.graph
      (.specLinked name kind :: journal, others.after linked.bodies)
    | .error error => ([], ⟨linked.graph, .error error, linked.bodies⟩)

/-- The installed objects in the order of linking: types, then services. -/
def linkOrder (types services : List (String × ObjectId)) :
    List (String × EntityKind × ObjectId) :=
  types.map (fun (name, id) => (name, .type, id)) ++
    services.map fun (name, id) => (name, .service, id)

/-- The scope of installed objects over included scopes, made in a graph that
holds these objects. -/
def createScope (workspace : Workspace) (graph : Graph)
    (installed : List (String × EntityKind × ObjectId)) (includes : Includes) :
    Scope × Workspace :=
  Workspace.createScope { workspace with graph } ((ofKind .type installed).map Prod.snd)
    ((ofKind .service installed).map Prod.snd) includes

/-- Make objects of compiled definitions, build their scope, and link them. -/
def assemble (workspace : Workspace) (units : List (String × CompiledDefinition))
    (includes : Includes) : ModuleRun :=
  let (installed, graph) := install workspace.graph units
  let types := ofKind .type installed
  let services := ofKind .service installed
  let (scope, workspace) := createScope workspace graph installed includes
  let built : JournalEntry :=
    .scopeBuilt types.length services.length ((Record.ofEntries includes).map Prod.fst)
  let (journal, linked) := linkAll scope (linkOrder types services) graph
  { journal := built :: journal
    workspace := { workspace with graph := linked.graph }
    outcome :=
      match linked.outcome with
      | .ok () => .ok { types, services, scope }
      | .error error => .error (.compile error) }

/-- Compile and link a unit over its includes. -/
def compile (workspace : Workspace) (definitions : List Definition)
    (includes : Includes := []) : ModuleRun :=
  match badInclude? includes with
  | some name => ⟨[], workspace, .error (.includeName name)⟩
  | none =>
    let compiled := compileAfter {} definitions
    match compiled.outcome with
    | .error error => ⟨compiled.journal, workspace, .error (.compile error)⟩
    | .ok units =>
      let run := assemble workspace units includes
      { run with journal := compiled.journal ++ run.journal }

end Module

end IdlLinker
