import IdlLinker.Module

/-!
# Qualified names

A scope is made of objects, given as types and as services, and of scopes given
under keys.  A qualified name is the keys on a way through such scopes, followed
by the name under which the last of them registers an object.
-/

namespace IdlLinker

/-- An object is the last of some objects to have a name. -/
def Graph.LastOf (graph : Graph) (ids : List ObjectId) (name : String) (id : ObjectId) : Prop :=
  ∃ before after, ids = before ++ id :: after ∧ graph.name? id = some name ∧
    ∀ other ∈ after, graph.name? other ≠ some name

/-- Two graphs have an object, and it has one name in both. -/
def Graph.NamedAlike (before after : Graph) (id : ObjectId) : Prop :=
  ∃ spec changed, before.object? id = some spec ∧ after.object? id = some changed ∧
    changed.name? = spec.name?

namespace Scope

/-- What a scope is made of. -/
structure Makings where
  types : List ObjectId
  services : List ObjectId
  includes : Includes

/-- A scope is the last of those given under a key. -/
def Makings.Under (makings : Makings) (key : String) (inner : Scope) : Prop :=
  ∃ before after, makings.includes = before ++ (key, inner) :: after ∧
    ∀ entry ∈ after, entry.1 ≠ key

/-- The objects given as objects of one kind. -/
def Makings.given (makings : Makings) : EntityKind → List ObjectId
  | .type => makings.types
  | .service => makings.services

/-- A scope was made of objects and scopes.  The graph has these objects, under
the names that they had then. -/
def MadeOf (graph : Graph) (scope : Scope) (makings : Makings) : Prop :=
  ∃ workspace : Workspace,
    scope = (workspace.createScope makings.types makings.services makings.includes).1 ∧
      ∀ kind, ∀ id ∈ makings.given kind, workspace.graph.NamedAlike graph id

/-- The empty scope, and what is made over such scopes. -/
inductive Built (graph : Graph) : Scope → Prop
  | empty : Built graph .empty
  | made {scope : Scope} {makings : Makings} (made : scope.MadeOf graph makings)
      (inner : ∀ entry ∈ makings.includes, Built graph entry.2) : Built graph scope

/-- A scope includes another one under a key: among the scopes that it was made
of, it is the last that was given under the key. -/
structure Included (graph : Graph) (scope : Scope) (key : String) (inner : Scope) : Prop where
  made : ∃ makings, scope.MadeOf graph makings
  last : ∀ makings, scope.MadeOf graph makings → makings.Under key inner

/-- A name can begin with a key, and a scope includes another one under it. -/
structure Leads (graph : Graph) (scope : Scope) (key : String) (inner : Scope) : Prop where
  plain : '.' ∉ key.toList
  nonempty : key ≠ ""
  included : scope.Included graph key inner

/-- From a scope down to another, one key a step. -/
inductive Descends (graph : Graph) : Scope → List String → Scope → Prop
  | here (scope : Scope) : Descends graph scope [] scope
  | inward {scope inner home : Scope} {key : String} {keys : List String}
      (step : scope.Leads graph key inner) (rest : Descends graph inner keys home) :
      Descends graph scope (key :: keys) home

/-- A name behind keys, with a dot after each key. -/
def qualified : List String → String → String
  | [], name => name
  | key :: keys, name => key ++ "." ++ qualified keys name

/-- A scope registers an object under a name: among the objects of its kind that
the scope was made of, it is the last that has the name. -/
structure Registered (graph : Graph) (scope : Scope) (kind : EntityKind) (name : String)
    (id : ObjectId) : Prop where
  made : ∃ makings, scope.MadeOf graph makings
  last : ∀ makings, scope.MadeOf graph makings → graph.LastOf (makings.given kind) name id

/-- A name of one kind resolves to what the scope registers under it.  If there
is nothing, what follows a leading key resolves in the scope included under
that key, and a name that begins with no such key does not resolve.  So where a
name is found, it tells the way to the scope that registers the object.  What is
registered is what was given last under the name, and what is included is what
was given last under the key. -/
structure Canonical (graph : Graph) (scope : Scope) (kind : EntityKind) (name : String) :
    Prop where
  found : ∀ id home, scope.resolve kind name = some (id, home) →
    ∃ keys own, name = qualified keys own ∧ scope.Descends graph keys home ∧
      graph.name? id = some own ∧ home.Registered graph kind own id ∧
        home.resolve kind own = some (id, home)
  own : ∀ id, scope.Registered graph kind name id → scope.resolve kind name = some (id, scope)
  included : ∀ key rest inner, name = key ++ "." ++ rest → scope.Leads graph key inner →
    (∀ id, ¬ scope.Registered graph kind name id) →
      scope.resolve kind name = inner.resolve kind rest
  missing : (∀ id, ¬ scope.Registered graph kind name id) →
    (∀ key rest inner, name = key ++ "." ++ rest → ¬ scope.Leads graph key inner) →
      scope.resolve kind name = none
  lookup : ∀ id, scope.lookup kind name = some id ↔
    ∃ home, scope.resolve kind name = some (id, home)
  registers : ∀ makings id, scope.MadeOf graph makings →
    graph.LastOf (makings.given kind) name id → scope.Registered graph kind name id
  includes : ∀ makings key inner, scope.MadeOf graph makings → makings.Under key inner →
    scope.Included graph key inner

end Scope

end IdlLinker
