import IdlLinker.CompileError
import IdlLinker.Scope

/-!
# What can be reached, and where it does not resolve

A graph as it was compiled holds objects and references.  References are
followed to what they stand for, each in the scope that is at hand where it is
met: an object is left in the scope it is entered in, and a reference in the
scope that registers what it stands for.  An exploration goes depth first,
enters each object once and goes on where a reference does not resolve, so it
collects all of these in order, each with the way to it.
-/

namespace IdlLinker

/-- A reference that does not resolve, and the way to it: the objects entered
and the positions left through, outermost first. -/
structure LooseEnd where
  path : List (ObjectId × Nat)
  reference : Reference

namespace LooseEnd

/-- A loose end seen from an object further out. -/
def under (id : ObjectId) (position : Nat) (loose : LooseEnd) : LooseEnd :=
  { loose with path := (id, position) :: loose.path }

/-- The names on the way that answer for the positions left through. -/
def owners (graph : Graph) (loose : LooseEnd) : List String :=
  loose.path.filterMap fun step => (graph.object? step.1).bind (·.ownerAt step.2)

/-- The error of a loose end: it names the reference and its line, wrapped in
the names on the way. -/
def error (graph : Graph) (loose : LooseEnd) : CompileError :=
  (loose.owners graph).foldr (.wrapped .link)
    (.unresolvedReference loose.reference.name loose.reference.line)

/-- How a walk ends that meets these loose ends in order. -/
def outcome (graph : Graph) : List LooseEnd → Except CompileError Unit
  | [] => .ok ()
  | first :: _ => .error (first.error graph)

end LooseEnd

/-- What is left to explore: a slot, or positions of an object. -/
inductive Stretch
  | slot (slot : Slot)
  | positions (id : ObjectId) (positions : List Nat)

namespace Graph

/-- From a slot that is met in a scope, a way leads to a reference that is met in
a scope. -/
inductive Refers (graph : Graph) :
    Scope → Slot → List (ObjectId × Nat) → Scope → Reference → Prop
  | here {scope : Scope} {reference : Reference} :
      Refers graph scope (.unresolved reference) [] scope reference
  | through {scope home last : Scope} {reference other : Reference} {id : ObjectId}
      {path : List (ObjectId × Nat)}
      (resolves : scope.resolve reference.kind reference.name = some (id, home))
      (refers : Refers graph home (.object id) path last other) :
      Refers graph scope (.unresolved reference) path last other
  | under {scope last : Scope} {id : ObjectId} {position : Nat} {slot : Slot}
      {path : List (ObjectId × Nat)} {other : Reference}
      (held : graph.slot? id position = some slot)
      (refers : Refers graph scope slot path last other) :
      Refers graph scope (.object id) ((id, position) :: path) last other

/-- Every reference that a slot leads to resolves where it is met. -/
def AllResolve (graph : Graph) (scope : Scope) (slot : Slot) : Prop :=
  ∀ path home reference, graph.Refers scope slot path home reference →
    (home.resolve reference.kind reference.name).isSome

/-- A depth-first exploration in a scope: from the objects entered before, the
loose ends it meets in order and the objects entered afterwards. -/
inductive Explores (graph : Graph) :
    Scope → Stretch → List ObjectId → List LooseEnd → List ObjectId → Prop
  | primitive {scope : Scope} {type : BaseType} {entered : List ObjectId} :
      Explores graph scope (.slot (.primitive type)) entered [] entered
  | loose {scope : Scope} {reference : Reference} {entered : List ObjectId}
      (unresolved : scope.resolve reference.kind reference.name = none) :
      Explores graph scope (.slot (.unresolved reference)) entered [⟨[], reference⟩] entered
  | reference {scope home : Scope} {reference : Reference} {id : ObjectId}
      {entered after : List ObjectId} {found : List LooseEnd}
      (resolves : scope.resolve reference.kind reference.name = some (id, home))
      (explored : Explores graph home (.slot (.object id)) entered found after) :
      Explores graph scope (.slot (.unresolved reference)) entered found after
  | known {scope : Scope} {id : ObjectId} {entered : List ObjectId}
      (known : id ∈ entered ∨ graph.object? id = none) :
      Explores graph scope (.slot (.object id)) entered [] entered
  | object {scope : Scope} {id : ObjectId} {entered after : List ObjectId}
      {found : List LooseEnd} {spec : Spec Slot}
      (new : id ∉ entered)
      (object : graph.object? id = some spec)
      (explored : Explores graph scope (.positions id (List.range spec.slots.length))
        (id :: entered) found after) :
      Explores graph scope (.slot (.object id)) entered found after
  | done {scope : Scope} {id : ObjectId} {entered : List ObjectId} :
      Explores graph scope (.positions id []) entered [] entered
  | next {scope : Scope} {id : ObjectId} {position : Nat} {others : List Nat} {slot : Slot}
      {entered between after : List ObjectId} {here later : List LooseEnd}
      (held : graph.slot? id position = some slot)
      (first : Explores graph scope (.slot slot) entered here between)
      (rest : Explores graph scope (.positions id others) between later after) :
      Explores graph scope (.positions id (position :: others)) entered
        (here.map (·.under id position) ++ later) after

end Graph

end IdlLinker
