import IdlLinker.Graph
import IdlLinker.Name
import IdlLinker.Record

/-!
# Scopes

A scope registers types and services by name and includes other scopes by
name.  A name is looked up among the scope's own entries first; otherwise what
follows its first dot is looked up in the include named before that dot.  The
answer tells the scope that registered the object as well.
-/

namespace IdlLinker

/-- Registered objects and included scopes.  The number tells apart scopes of
equal contents. -/
structure Scope where
  identity : Nat := 0
  types : List (String × ObjectId) := []
  services : List (String × ObjectId) := []
  includes : List (String × Scope) := []

namespace Scope

/-- The scope that registers nothing. -/
def empty : Scope := {}

/-- The scope's own entries of one kind. -/
def table (scope : Scope) : EntityKind → List (String × ObjectId)
  | .type => scope.types
  | .service => scope.services

/-- An object has an entry of the scope's own. -/
def Registers (scope : Scope) (id : ObjectId) : Prop :=
  ∃ kind name, Record.get? (scope.table kind) name = some id

/-- Look up a name given by its segments. -/
def resolveSegments (kind : EntityKind) (scope : Scope) :
    List (List Char) → Option (ObjectId × Scope)
  | [] => none
  | first :: rest =>
    let name := String.ofList (Name.joinSegments (first :: rest))
    match Record.get? (scope.table kind) name with
    | some id => some (id, scope)
    | none =>
      if first.isEmpty || rest.isEmpty then none
      else
        match Record.get? scope.includes (String.ofList first) with
        | some included => included.resolveSegments kind rest
        | none => none

/-- The object a name stands for, and the scope that registered it. -/
def resolve (scope : Scope) (kind : EntityKind) (name : String) :
    Option (ObjectId × Scope) :=
  scope.resolveSegments kind (Name.segments name.toList)

/-- The object a name stands for. -/
def lookup (scope : Scope) (kind : EntityKind) (name : String) : Option ObjectId :=
  (scope.resolve kind name).map (·.1)

/-- Register an object under its name, if it has one. -/
def register (graph : Graph) (entries : List (String × ObjectId)) (id : ObjectId) :
    List (String × ObjectId) :=
  match graph.name? id with
  | some name => Record.put entries name id
  | none => entries

/-- Register objects under their names; a later object takes the place of an
earlier one of its name. -/
def tableOf (graph : Graph) (ids : List ObjectId) : List (String × ObjectId) :=
  ids.foldl (register graph) []

end Scope

end IdlLinker
