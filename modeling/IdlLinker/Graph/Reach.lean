import Mathlib.Logic.Relation
import IdlLinker.Graph

/-!
# Reachability

An object leads to the objects that stand at its positions.
-/

namespace IdlLinker.Graph

/-- An object stands at a position of another. -/
def Holds (graph : Graph) (holder id : ObjectId) : Prop :=
  ∃ position, graph.slot? holder position = some (.object id)

/-- What an object leads to, itself included. -/
def Reaches (graph : Graph) : ObjectId → ObjectId → Prop :=
  Relation.ReflTransGen graph.Holds

end IdlLinker.Graph
