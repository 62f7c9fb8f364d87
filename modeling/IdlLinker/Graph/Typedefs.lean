import IdlLinker.Graph.Query

/-!
# Chains of typedefs

A slot that holds a typedef leads on to what the typedef stands for.  The chain
from a slot ends in a type that is no typedef, ends in a reference, or comes
back to a typedef that it passed.
-/

namespace IdlLinker

/-- Containers, structs and enums are types of their own. -/
def Spec.IsRoot {ρ : Type} : Spec ρ → Prop
  | map .. | list .. | set .. | struct .. | enum .. => True
  | _ => False

namespace Graph

/-- From a slot, through the typedefs passed, to a slot. -/
inductive Leads (graph : Graph) : Slot → List ObjectId → Slot → Prop
  | here (slot : Slot) : Leads graph slot [] slot
  | through {id : ObjectId} {name : String} {target last : Slot} {passed : List ObjectId}
      (typedef : graph.object? id = some (.typedef name target))
      (rest : Leads graph target passed last) : Leads graph (.object id) (id :: passed) last

/-- The chain from a slot comes back to a typedef that it passed. -/
def Loops (graph : Graph) (slot : Slot) : Prop :=
  ∃ passed id, graph.Leads slot passed (.object id) ∧ id ∈ passed

/-- Different typedefs on the chain from a slot have different names. -/
def NamesDiffer (graph : Graph) (slot : Slot) : Prop :=
  ∀ passed last, graph.Leads slot passed last →
    ∀ first ∈ passed, ∀ second ∈ passed, graph.nameOf first = graph.nameOf second → first = second

/-- A type that is no typedef. -/
def IsRoot (graph : Graph) : Slot → Prop
  | .primitive _ => True
  | .unresolved _ => False
  | .object id => ∃ spec, graph.object? id = some spec ∧ spec.IsRoot

/-- A struct, union or exception. -/
def IsStruct (graph : Graph) (slot : Slot) : Prop :=
  ∃ id name kind fields, slot = .object id ∧ graph.object? id = some (.struct name kind fields)

/-- What is answered about the root of a slot is what its chain of typedefs
comes to. -/
structure RootExact (graph : Graph) (slot : Slot) : Prop where
  root : ∀ last, graph.rootType slot = .ok last ↔
    (∃ passed, graph.Leads slot passed last) ∧ graph.IsRoot last
  cycle : (∃ names, graph.rootType slot = .error (.typedefCycle names)) ↔ graph.Loops slot
  unlinked : ∀ name line, graph.rootType slot = .error (.typeNotLinked name line) ↔
    ∃ passed kind, graph.Leads slot passed (.unresolved ⟨kind, name, line⟩)
  struct : graph.isStructType slot = .ok true ↔
    ∃ passed last, graph.Leads slot passed last ∧ graph.IsStruct last

end Graph

end IdlLinker
