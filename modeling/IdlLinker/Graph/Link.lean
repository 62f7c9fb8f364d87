import IdlLinker.CompileError
import IdlLinker.Scope

/-!
# Linking

Linking an object resolves every reference reachable from it.  The object is
marked, and then its positions are settled in order: a reference is resolved
in the current scope and the object found is linked in the scope that
registered it, while an object already in place is linked in the current
scope.  Objects that are marked are not entered again, so cyclic graphs come
to an end.

Everything marked while one object is linked is pending until that object is
done.  When a position fails, everything replaced up to there stays replaced,
and every pending mark is taken back: an object that was finished may still
lead to the one that failed.

Each step also tells whose bodies it ran, in order.  This record is kept when
the step fails, although the marks are not.
-/

namespace IdlLinker

/-- The graph that a linking step leaves, its result or error, and the objects
whose bodies it ran, in order. -/
structure Linked (α : Type) where
  graph : Graph
  outcome : Except CompileError α
  bodies : List ObjectId

namespace Linked

/-- A linking step whose result is not looked at. -/
def done {α : Type} (linked : Linked α) : Linked Unit :=
  ⟨linked.graph, linked.outcome.map fun _ => (), linked.bodies⟩

/-- A linking step that comes after these bodies. -/
def after {α : Type} (linked : Linked α) (earlier : List ObjectId) : Linked α :=
  { linked with bodies := earlier ++ linked.bodies }

@[simp]
theorem graph_after {α : Type} (linked : Linked α) (earlier : List ObjectId) :
    (linked.after earlier).graph = linked.graph := rfl

@[simp]
theorem outcome_after {α : Type} (linked : Linked α) (earlier : List ObjectId) :
    (linked.after earlier).outcome = linked.outcome := rfl

@[simp]
theorem bodies_after {α : Type} (linked : Linked α) (earlier : List ObjectId) :
    (linked.after earlier).bodies = earlier ++ linked.bodies := rfl

@[simp]
theorem after_nil {α : Type} (linked : Linked α) : linked.after [] = linked := rfl

/-- Two linking steps leave the same graph and end in the same way.  They may
have run different bodies. -/
structure Agrees {α : Type} (left right : Linked α) : Prop where
  graph : left.graph = right.graph
  outcome : left.outcome = right.outcome

theorem Agrees.after {α : Type} (linked : Linked α) (earlier : List ObjectId) :
    linked.Agrees (linked.after earlier) := ⟨rfl, rfl⟩

end Linked

namespace Graph

/-- The object that a slot leads to, and the scope it is linked in. -/
def target (scope : Scope) : Slot → Except CompileError (Option (ObjectId × Scope))
  | .primitive _ => .ok none
  | .object id => .ok (some (id, scope))
  | .unresolved reference =>
    match scope.resolve reference.kind reference.name with
    | some found => .ok (some found)
    | none => .error (.unresolvedReference reference.name reference.line)

/-- A step that links an object in a scope. -/
abbrev Enter := Scope → ObjectId → Graph → Linked Unit

/-- Link what a slot leads to; the result is the slot that belongs in its
place. -/
def settleSlot (enter : Enter) (scope : Scope) (slot : Slot) (graph : Graph) : Linked Slot :=
  match target scope slot with
  | .error error => ⟨graph, .error error, []⟩
  | .ok none => ⟨graph, .ok slot, []⟩
  | .ok (some (id, home)) =>
    let entered := enter home id graph
    ⟨entered.graph, entered.outcome.map fun _ => .object id, entered.bodies⟩

/-- An error of a position, under the name that answers for the position. -/
def ownError (owner : Option String) (error : CompileError) : CompileError :=
  match owner with
  | some name => .wrapped .link name error
  | none => error

/-- Settle one position of an object and store the result there.  An error is
wrapped with the name that answers for the position. -/
def settlePosition (enter : Enter) (scope : Scope) (id : ObjectId) (owner : Option String)
    (position : Nat) (graph : Graph) : Linked Unit :=
  match graph.slot? id position with
  | none => ⟨graph, .ok (), []⟩
  | some slot =>
    let settled := settleSlot enter scope slot graph
    match settled.outcome with
    | .ok slot => ⟨settled.graph.setSlot id position slot, .ok (), settled.bodies⟩
    | .error error => ⟨settled.graph, .error (ownError owner error), settled.bodies⟩

/-- Settle positions of an object in order, up to the first that fails. -/
def settlePositions (enter : Enter) (scope : Scope) (id : ObjectId)
    (owner : Nat → Option String) : List Nat → Graph → Linked Unit
  | [], graph => ⟨graph, .ok (), []⟩
  | position :: rest, graph =>
    let settled := settlePosition enter scope id (owner position) position graph
    match settled.outcome with
    | .ok () => (settlePositions enter scope id owner rest settled.graph).after settled.bodies
    | .error error => ⟨settled.graph, .error error, settled.bodies⟩

/-- Run the body of an object, and record it, unless the object is marked.  The
object is marked first.  If the body fails, everything pending is unmarked; when
the outermost body ends, nothing stays pending. -/
def linkOnce (graph : Graph) (id : ObjectId) (body : Graph → Linked Unit) : Linked Unit :=
  if id ∈ graph.linked then ⟨graph, .ok (), []⟩
  else
    let ran := body (graph.markPending id)
    let kept :=
      match ran.outcome with
      | .ok () => ran.graph
      | .error _ => ran.graph.unmarkPending
    { graph := { kept with pending := if graph.pending.isNone then none else kept.pending }
      outcome := ran.outcome
      bodies := id :: ran.bodies }

/-- Link an object and what it leads to.  Every object entered on the way is
marked first, so a depth above the number of objects is never used up. -/
def enter : (depth : Nat) → Enter
  | 0, _, _, graph => ⟨graph, .ok (), []⟩
  | depth + 1, scope, id, graph =>
    match graph.object? id with
    | none => ⟨graph, .ok (), []⟩
    | some spec =>
      graph.linkOnce id
        (settlePositions (enter depth) scope id spec.ownerAt (List.range spec.slots.length))

/-- A depth that linking cannot use up. -/
def linkDepth (graph : Graph) : Nat := graph.objects.size + 1

/-- Link an object in a scope. -/
def linkObject (graph : Graph) (scope : Scope) (id : ObjectId) : Linked Unit :=
  enter graph.linkDepth scope id graph

/-- Link what a slot leads to in a scope; the result is the slot resolved. -/
def linkSlot (graph : Graph) (scope : Scope) (slot : Slot) : Linked Slot :=
  settleSlot (enter graph.linkDepth) scope slot graph

/-- Link one position of an object.  The object itself is not marked and gives
no name to errors. -/
def linkPosition (graph : Graph) (scope : Scope) (id : ObjectId) (position : Nat) :
    Linked Unit :=
  settlePosition (enter graph.linkDepth) scope id none position graph

/-- Link positions of an object, each on its own, up to the first that fails. -/
def linkPositions (graph : Graph) (scope : Scope) (id : ObjectId) :
    List Nat → Linked Unit
  | [] => ⟨graph, .ok (), []⟩
  | position :: rest =>
    let settled := graph.linkPosition scope id position
    match settled.outcome with
    | .ok () => (linkPositions settled.graph scope id rest).after settled.bodies
    | .error error => ⟨settled.graph, .error error, settled.bodies⟩

/-- Link a type or a service.  A function is linked through its service, and a
reference to a service through the service that holds it. -/
def linkSpec (graph : Graph) (scope : Scope) (slot : Slot) : Linked Slot :=
  match slot with
  | .unresolved ⟨.service, _, _⟩ => ⟨graph, .ok slot, []⟩
  | .object id =>
    match graph.object? id with
    | some (.function _) => ⟨graph, .ok slot, []⟩
    | _ => graph.linkSlot scope slot
  | _ => graph.linkSlot scope slot

end Graph

/-- The parts of an object that are field groups. -/
inductive GroupPart
  | fields
  | args
  | exceptions
  deriving DecidableEq, Repr

/-- The positions of a field group of an object. -/
def Spec.groupPositions {ρ : Type} (spec : Spec ρ) : GroupPart → List Nat
  | .fields =>
    match spec with
    | .struct _ _ fields => List.range fields.length
    | .fieldGroup fields => List.range fields.length
    | _ => []
  | .args =>
    match spec with
    | .function body => List.range body.args.length
    | _ => []
  | .exceptions =>
    match spec with
    | .function ⟨_, args, some ⟨returnType, exceptions⟩, _⟩ =>
      List.range' (args.length + returnType.toList.length) exceptions.length
    | _ => []

/-- Link the fields of a field group, each on its own. -/
def Graph.linkFieldGroup (graph : Graph) (scope : Scope) (id : ObjectId) (part : GroupPart) :
    Linked Unit :=
  match graph.object? id with
  | none => ⟨graph, .ok (), []⟩
  | some spec => graph.linkPositions scope id (spec.groupPositions part)

end IdlLinker
