import IdlLinker.Graph

/-!
# Roles

A position asks for a type, for a service or for a function, and an object can
be used as one of these.  A graph is well typed when every position holds what
it asks for.
-/

namespace IdlLinker

/-- What an object can be used as. -/
inductive Role
  | type
  | service
  | function
  deriving DecidableEq, Repr

/-- What a name of a kind stands for. -/
def EntityKind.role : EntityKind → Role
  | .type => .type
  | .service => .service

namespace Spec

variable {ρ : Type}

/-- What an object can be used as; a field group is not used at any
position. -/
def role? : Spec ρ → Option Role
  | function _ => some .function
  | service .. => some .service
  | fieldGroup _ => none
  | _ => some .type

/-- Structs, typedefs, enums and services are made of definitions and can be
registered under their names; all other objects are parts of these or stand
for themselves. -/
def isDefined : Spec ρ → Bool
  | struct .. | typedef .. | enum .. | service .. => true
  | _ => false

/-- What a position of an object asks for. -/
def roleAt (spec : Spec ρ) (position : Nat) : Role :=
  match spec with
  | service _ parent _ => if position < parent.toList.length then .service else .function
  | _ => .type

end Spec

namespace Graph

/-- A slot can stand where a role is asked for. -/
def fits (graph : Graph) (role : Role) : Slot → Bool
  | .primitive _ => role == .type
  | .unresolved reference => role == reference.kind.role
  | .object id => (graph.object? id).bind Spec.role? == some role

/-- Every position holds what it asks for. -/
def WellTyped (graph : Graph) : Prop :=
  ∀ id spec position slot, graph.object? id = some spec →
    spec.slots[position]? = some slot → graph.fits (spec.roleAt position) slot = true

end Graph

end IdlLinker
