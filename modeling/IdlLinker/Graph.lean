import IdlLinker.Entity
import IdlLinker.Spec

/-!
# Graphs of specs

The objects of a graph refer to each other by identifier, so a graph may be
cyclic and two equal objects stay distinct.  A position of an object holds a
base type, a reference not resolved yet, or another object.  The graph also
keeps which objects are linked, and which of them the linking under way has
marked; objects are added and never removed.
-/

namespace IdlLinker

/-- The identity of an object of a graph. -/
abbrev ObjectId := Nat

/-- A name that stands for a type or a service, and the line it was written
on. -/
structure Reference where
  kind : EntityKind
  name : String
  line : Number
  deriving DecidableEq

/-- What a position of an object holds. -/
inductive Slot
  | primitive (type : BaseType)
  | unresolved (reference : Reference)
  | object (id : ObjectId)
  deriving DecidableEq

/-- Objects, the identifiers of those that are linked, latest first, and the
identifiers marked since the linking under way began.  Between two linkings
nothing is pending. -/
structure Graph where
  objects : Array (Spec Slot) := #[]
  linked : List ObjectId := []
  pending : Option (List ObjectId) := none

namespace Graph

/-- The object of an identifier. -/
def object? (graph : Graph) (id : ObjectId) : Option (Spec Slot) :=
  graph.objects[id]?

/-- The name of an object. -/
def name? (graph : Graph) (id : ObjectId) : Option String :=
  (graph.object? id).bind Spec.name?

/-- Add an object. -/
def add (graph : Graph) (spec : Spec Slot) : ObjectId × Graph :=
  (graph.objects.size, { graph with objects := graph.objects.push spec })

/-- What an object holds at a position. -/
def slot? (graph : Graph) (id : ObjectId) (position : Nat) : Option Slot :=
  (graph.object? id).bind fun spec => spec.slots[position]?

/-- Replace what an object holds at a position. -/
def setSlot (graph : Graph) (id : ObjectId) (position : Nat) (slot : Slot) : Graph :=
  { graph with objects := graph.objects.modify id fun spec => spec.setSlot position slot }

/-- Mark an object as linked. -/
def mark (graph : Graph) (id : ObjectId) : Graph :=
  { graph with linked := id :: graph.linked }

/-- Mark an object as linked, for as long as the linking under way does not
fail. -/
def markPending (graph : Graph) (id : ObjectId) : Graph :=
  { graph.mark id with pending := some (id :: graph.pending.getD []) }

/-- Take back every mark made since the linking under way began. -/
def unmarkPending (graph : Graph) : Graph :=
  { graph with linked := graph.linked.filter fun id => id ∉ graph.pending.getD [] }

/-- A base type is linked, a reference is not, and an object is linked when it
is marked. -/
def isLinked (graph : Graph) : Slot → Bool
  | .primitive _ => true
  | .unresolved _ => false
  | .object id => decide (id ∈ graph.linked)

end Graph

end IdlLinker
