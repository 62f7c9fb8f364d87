import IdlLinker.Definition

/-!
# Specs

A spec is the compiled form of a type, a function or a service.  It is
polymorphic in what stands at its type positions: the written types while a
definition is compiled on its own, and slots of a graph afterwards.  The
positions of a spec are counted in the order in which they are linked.
-/

namespace IdlLinker

/-- A compiled field. -/
structure FieldSpec (ρ : Type) where
  id : Int
  name : String
  type : ρ
  required : Bool
  defaultValue : Option Value := none

/-- What a function gives back: a type, exceptions, or both. -/
structure ResultSpec (ρ : Type) where
  returnType : Option ρ
  exceptions : List (FieldSpec ρ)

/-- A compiled function. -/
structure FunctionSpec (ρ : Type) where
  name : String
  args : List (FieldSpec ρ)
  result : Option (ResultSpec ρ)
  oneway : Bool

/-- An item of a compiled enum. -/
structure EnumItemSpec where
  name : String
  value : Int
  deriving DecidableEq

/-- A compiled object.  A service holds its parent, if it has one, and its own
functions by name; a field group stands for itself where it belongs to no
other object. -/
inductive Spec (ρ : Type)
  | map (key value : ρ)
  | list (value : ρ)
  | set (value : ρ)
  | struct (name : String) (kind : StructKind) (fields : List (FieldSpec ρ))
  | typedef (name : String) (target : ρ)
  | enum (name : String) (items : List EnumItemSpec)
  | function (body : FunctionSpec ρ)
  | service (name : String) (parent : Option ρ) (functions : List (String × ρ))
  | fieldGroup (fields : List (FieldSpec ρ))

variable {ρ σ : Type}

namespace FieldSpec

/-- A field with another type. -/
def withType (field : FieldSpec ρ) (type : σ) : FieldSpec σ :=
  { id := field.id, name := field.name, type, required := field.required,
    defaultValue := field.defaultValue }

/-- Fields with the types at consecutive positions changed. -/
def mapTypes (change : Nat → ρ → σ) :
    (position : Nat) → List (FieldSpec ρ) → List (FieldSpec σ)
  | _, [] => []
  | position, field :: rest =>
    field.withType (change position field.type) :: mapTypes change (position + 1) rest

theorem map_type_mapTypes (change : Nat → ρ → σ) (position : Nat)
    (fields : List (FieldSpec ρ)) :
    (mapTypes change position fields).map (·.type) =
      (fields.map (·.type)).mapIdx fun index type => change (position + index) type := by
  induction fields generalizing position with
  | nil => rfl
  | cons field rest hypothesis =>
    simp [mapTypes, hypothesis, withType, Nat.add_assoc, Nat.add_comm 1]

end FieldSpec

namespace FunctionSpec

/-- What stands at the type positions of a function: arguments, then the
returned type, then exceptions. -/
def slots (function : FunctionSpec ρ) : List ρ :=
  function.args.map (·.type) ++
    match function.result with
    | none => []
    | some result => result.returnType.toList ++ result.exceptions.map (·.type)

/-- A function with its type positions changed. -/
def mapSlots (change : Nat → ρ → σ) (function : FunctionSpec ρ) : FunctionSpec σ where
  name := function.name
  args := FieldSpec.mapTypes change 0 function.args
  result :=
    function.result.map fun result =>
      { returnType := result.returnType.map (change function.args.length)
        exceptions :=
          FieldSpec.mapTypes change
            (function.args.length + result.returnType.toList.length) result.exceptions }
  oneway := function.oneway

end FunctionSpec

namespace Spec

/-- The name of an object, if it has one. -/
def name? : Spec ρ → Option String
  | struct name .. => some name
  | typedef name _ => some name
  | enum name _ => some name
  | function body => some body.name
  | service name .. => some name
  | _ => none

/-- What stands at the positions of an object, in the order of linking. -/
def slots : Spec ρ → List ρ
  | map key value => [key, value]
  | list value => [value]
  | set value => [value]
  | struct _ _ fields => fields.map (·.type)
  | typedef _ target => [target]
  | enum .. => []
  | function body => body.slots
  | service _ parent functions => parent.toList ++ functions.map (·.2)
  | fieldGroup fields => fields.map (·.type)

/-- An object with its positions changed and all else kept. -/
def mapSlots (change : Nat → ρ → σ) : Spec ρ → Spec σ
  | map key value => map (change 0 key) (change 1 value)
  | list value => list (change 0 value)
  | set value => set (change 0 value)
  | struct name kind fields => struct name kind (FieldSpec.mapTypes change 0 fields)
  | typedef name target => typedef name (change 0 target)
  | enum name items => enum name items
  | function body => function (body.mapSlots change)
  | service name parent functions =>
    service name (parent.map (change 0))
      (functions.mapIdx fun index entry =>
        (entry.1, change (parent.toList.length + index) entry.2))
  | fieldGroup fields => fieldGroup (FieldSpec.mapTypes change 0 fields)

/-- An object with one position replaced. -/
def setSlot (spec : Spec ρ) (position : Nat) (value : ρ) : Spec ρ :=
  spec.mapSlots fun index old => if index = position then value else old

/-- Whose name is put in front of an error at a position.  Containers and
field groups have no name to give, and a service answers for its parent but
not for its functions. -/
def ownerAt (spec : Spec ρ) (position : Nat) : Option String :=
  match spec with
  | struct name .. => some name
  | typedef name _ => some name
  | function body => some body.name
  | service name (some _) _ => if position = 0 then some name else none
  | _ => none

end Spec

end IdlLinker
