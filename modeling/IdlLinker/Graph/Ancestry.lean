import IdlLinker.Graph.Query

/-!
# Chains of parents

A service leads on to its parent.  The chain from a service ends in a service
without a parent, ends in one whose parent is a reference, or comes back to a
service that it passed, which need not be the first.
-/

namespace IdlLinker.Graph

/-- From a service, through the services passed, up to a service. -/
inductive Ascends (graph : Graph) : ObjectId → List ObjectId → ObjectId → Prop
  | here (id : ObjectId) : Ascends graph id [] id
  | through {id parent last : ObjectId} {passed : List ObjectId}
      (held : graph.parent? id = some (.object parent))
      (rest : Ascends graph parent passed last) : Ascends graph id (id :: passed) last

/-- The chain of parents from a service comes back to a service that it
passed. -/
def ComesBack (graph : Graph) (id : ObjectId) : Prop :=
  ∃ passed last, graph.Ascends id passed last ∧ last ∈ passed

/-- What is answered about the ancestry of a service is what its chain of
parents comes to. -/
structure AncestryExact (graph : Graph) (id : ObjectId) : Prop where
  chain : ∀ chain, graph.ancestry id = .ok chain ↔
    ∃ passed last, graph.Ascends id passed last ∧ graph.parent? last = none ∧
      chain = passed ++ [last]
  distinct : ∀ chain, graph.ancestry id = .ok chain → chain.Nodup
  cycle : (∃ names, graph.ancestry id = .error (.inheritanceCycle names)) ↔ graph.ComesBack id
  unlinked : ∀ parent service, graph.ancestry id = .error (.parentNotLinked parent service) ↔
    ∃ passed last kind line, graph.Ascends id passed last ∧
      graph.parent? last = some (.unresolved ⟨kind, parent, line⟩) ∧ service = graph.nameOf last

/-- A function is looked up along the ancestry of a service: the nearest service
that declares it gives its own. -/
structure LookupExact (graph : Graph) (id : ObjectId) (name : String) : Prop where
  throws : ∀ error, graph.findFunction id name = .error error ↔ graph.ancestry id = .error error
  nearest : ∀ chain, graph.ancestry id = .ok chain → ∀ service function,
    graph.findFunction id name = .ok (some (service, function)) ↔
      ∃ before after, chain = before ++ service :: after ∧
        graph.ownFunction? service name = some function ∧
        ∀ nearer ∈ before, graph.ownFunction? nearer name = none
  missing : ∀ chain, graph.ancestry id = .ok chain →
    (graph.findFunction id name = .ok none ↔
      ∀ service ∈ chain, graph.ownFunction? service name = none)
  function : ∀ service slot, graph.findFunction id name = .ok (some (service, slot)) →
    ∃ function body, slot = .object function ∧ graph.object? function = some (.function body)

end IdlLinker.Graph
