import IdlLinker.Graph
import IdlLinker.Number.Shortest

/-!
# Questions about a graph

The root of a type is what its chain of typedefs ends in.  The ancestry of a
service is the service followed by its parents, nearest first, and a function
is looked up along it.
-/

namespace IdlLinker

/-- Why a question about a graph has no answer. -/
inductive GraphError
  | typedefCycle (names : List String)
  | typeNotLinked (name : String) (line : Number)
  | inheritanceCycle (names : List String)
  | parentNotLinked (parent service : String)
  deriving DecidableEq

/-- The text of an error. -/
def GraphError.message : GraphError → String
  | .typedefCycle names => "typedef cycle: " ++ " -> ".intercalate names
  | .typeNotLinked name line =>
    "reference \"" ++ name ++ "\" on line " ++ line.text ++ " has not been linked"
  | .inheritanceCycle names => "service inheritance cycle: " ++ " -> ".intercalate names
  | .parentNotLinked parent service =>
    "parent \"" ++ parent ++ "\" of service \"" ++ service ++ "\" has not been linked"

namespace Graph

/-- The typedef that a slot holds: its name and what it stands for. -/
def typedef? (graph : Graph) : Slot → Option (String × Slot)
  | .object id =>
    match graph.object? id with
    | some (.typedef name target) => some (name, target)
    | _ => none
  | _ => none

/-- Follow typedefs, none of whose names was seen before.  Names are those of
objects, so a chain longer than the number of objects repeats one. -/
def rootAfter (graph : Graph) : (steps : Nat) → (seen : List String) → Slot →
    Except GraphError Slot
  | 0, seen, _ => .error (.typedefCycle seen)
  | steps + 1, seen, slot =>
    match graph.typedef? slot with
    | some (name, target) =>
      if name ∈ seen then .error (.typedefCycle (seen ++ [name]))
      else rootAfter graph steps (seen ++ [name]) target
    | none =>
      match slot with
      | .unresolved ⟨.type, name, line⟩ => .error (.typeNotLinked name line)
      | _ => .ok slot

/-- What the chain of typedefs from a slot ends in. -/
def rootType (graph : Graph) (slot : Slot) : Except GraphError Slot :=
  graph.rootAfter (graph.objects.size + 1) [] slot

/-- A type whose root is a struct, union or exception. -/
def isStructType (graph : Graph) (slot : Slot) : Except GraphError Bool := do
  match ← graph.rootType slot with
  | .object id =>
    match graph.object? id with
    | some (.struct ..) => return true
    | _ => return false
  | _ => return false

/-- The parent of a service. -/
def parent? (graph : Graph) (id : ObjectId) : Option Slot :=
  match graph.object? id with
  | some (.service _ parent _) => parent
  | _ => none

/-- The name of an object for messages. -/
def nameOf (graph : Graph) (id : ObjectId) : String := (graph.name? id).getD ""

/-- Follow parents from a service, none of which was passed before. -/
def ancestryAfter (graph : Graph) : (steps : Nat) → (chain : List ObjectId) → ObjectId →
    Except GraphError (List ObjectId)
  | 0, chain, _ => .ok chain
  | steps + 1, chain, id =>
    if id ∈ chain then
      .error (.inheritanceCycle ((chain ++ [id]).map graph.nameOf))
    else
      match graph.parent? id with
      | some (.unresolved reference) =>
        .error (.parentNotLinked reference.name (graph.nameOf id))
      | some (.object parent) => ancestryAfter graph steps (chain ++ [id]) parent
      | _ => .ok (chain ++ [id])

/-- A service followed by its parents, nearest first. -/
def ancestry (graph : Graph) (id : ObjectId) : Except GraphError (List ObjectId) :=
  graph.ancestryAfter (graph.objects.size + 1) [] id

/-- A service's own function of a name. -/
def ownFunction? (graph : Graph) (id : ObjectId) (name : String) : Option Slot :=
  match graph.object? id with
  | some (.service _ _ functions) => Record.get? functions name
  | _ => none

/-- The nearest service of an ancestry that declares a function, and that
function. -/
def findFunction (graph : Graph) (id : ObjectId) (name : String) :
    Except GraphError (Option (ObjectId × Slot)) := do
  let chain ← graph.ancestry id
  return chain.findSome? fun candidate =>
    (graph.ownFunction? candidate name).map fun function => (candidate, function)

end Graph

end IdlLinker
