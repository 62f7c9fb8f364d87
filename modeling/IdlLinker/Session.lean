import IdlLinker.Graph.Role
import IdlLinker.Module

/-!
# Sessions

A session is what a sequence of calls leaves behind.  Definitions, types,
functions and field groups are compiled; scopes are made of specs and of scopes
made before; units are compiled over such scopes; and specs are linked in them.
A call that fails leaves what it did up to there.  A call that names a scope
not made yet, or takes a spec for what it is not, is no call and changes
nothing.
-/

namespace IdlLinker

/-- What is asked to be linked: a type or a service, a type, a service, a
function, or the fields of a field group. -/
inductive LinkCall
  | spec (slot : Slot)
  | type (slot : Slot)
  | service (id : ObjectId)
  | function (id : ObjectId)
  | fields (id : ObjectId) (part : GroupPart)

namespace LinkCall

/-- A linking asks for what the spec is. -/
def admitted (graph : Graph) : LinkCall → Bool
  | spec slot => graph.fits .type slot || graph.fits .service slot
  | type slot => graph.fits .type slot
  | service id => graph.fits .service (.object id)
  | function id => graph.fits .function (.object id)
  | fields _ _ => true

/-- Link what is asked for in a scope. -/
def perform (graph : Graph) (scope : Scope) : LinkCall → Linked Unit
  | spec slot => (graph.linkSpec scope slot).done
  | type slot => (graph.linkSlot scope slot).done
  | service id => graph.linkObject scope id
  | function id => graph.linkObject scope id
  | fields id part => graph.linkFieldGroup scope id part

end LinkCall

/-- One call of a session.  Scopes are named by the order in which they were
made. -/
inductive Call
  | compile (definition : Definition)
  | compileType (type : TypeExpression)
  | compileFunction (function : Function)
  | compileFields (fields : List Field) (rules : FieldRules)
  | createScope (types services : List ObjectId) (includes : List (String × Nat))
  | compileModule (definitions : List Definition) (includes : List (String × Nat))
  | link (call : LinkCall) (scope : Nat)

/-- Calls that compile definitions, types, functions and field groups, and make
scopes of them. -/
def Call.prepares : Call → Bool
  | .compileModule .. | .link .. => false
  | _ => true

/-- The workspace of a session, the scopes made in it, and its modules. -/
structure Session where
  workspace : Workspace := {}
  scopes : List Scope := [Scope.empty]
  modules : List Module := []

namespace Session

/-- The objects of a session. -/
def graph (session : Session) : Graph := session.workspace.graph

/-- A session with another graph. -/
def withGraph (session : Session) (graph : Graph) : Session :=
  { session with workspace := { session.workspace with graph } }

/-- Add the objects of a compilation that succeeded. -/
def install {α β : Type} (session : Session) (compilation : Compilation α)
    (installer : α → StateM Graph β) : Session :=
  match compilation.outcome with
  | .ok value => session.withGraph (Id.run ((installer value).run session.graph)).2
  | .error _ => session

/-- The scopes that are named. -/
def scopesOf? (session : Session) (includes : List (String × Nat)) : Option Includes :=
  includes.mapM fun entry => (session.scopes[entry.2]?).map fun scope => (entry.1, scope)

/-- Make a scope, if types are given as types and services as services. -/
def createScope (session : Session) (types services : List ObjectId) (includes : Includes) :
    Session :=
  if types.all (fun id => session.graph.fits .type (.object id)) &&
      services.all fun id => session.graph.fits .service (.object id) then
    let (scope, workspace) := session.workspace.createScope types services includes
    { session with workspace, scopes := session.scopes ++ [scope] }
  else session

/-- Compile and link a unit, and keep it if that succeeds. -/
def compileModule (session : Session) (definitions : List Definition) (includes : Includes) :
    Session :=
  let run := Module.compile session.workspace definitions includes
  match run.outcome with
  | .ok module =>
    { workspace := run.workspace
      scopes := session.scopes ++ [module.scope]
      modules := session.modules ++ [module] }
  | .error _ => { session with workspace := run.workspace }

/-- What a call leaves behind. -/
def perform (session : Session) : Call → Session
  | .compile definition => session.install definition.compile CompiledDefinition.install
  | .compileType type => session.install (pure type) TypeExpression.install
  | .compileFunction function => session.install function.compile FunctionSpec.install
  | .compileFields fields rules =>
    session.install (FieldGroup.compile fields rules) FieldGroup.install
  | .createScope types services includes =>
    match session.scopesOf? includes with
    | some includes => session.createScope types services includes
    | none => session
  | .compileModule definitions includes =>
    match session.scopesOf? includes with
    | some includes => session.compileModule definitions includes
    | none => session
  | .link call scope =>
    match session.scopes[scope]? with
    | some scope =>
      if call.admitted session.graph then
        session.withGraph (call.perform session.graph scope).graph
      else session
    | none => session

/-- What a sequence of calls leaves behind. -/
def run (calls : List Call) : Session := calls.foldl perform {}

end Session

end IdlLinker
