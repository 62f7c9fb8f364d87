import IdlLinker.Compilation
import IdlLinker.Namespace
import IdlLinker.Spec

/-!
# Field groups

The fields of one struct body, argument list or throws list.  Names are
distinct, explicit identifiers are distinct integers from 1 to 32767, and the
fields without one are numbered downwards from -1, each with a warning.  A
group may refuse default values or required fields.
-/

namespace IdlLinker

/-- What a field group allows. -/
structure FieldRules where
  defaultsAllowed : Bool := true
  requiredAllowed : Bool := true
  deriving DecidableEq, Repr

namespace FieldGroup

/-- The smallest explicit identifier. -/
def minId : Int := 1

/-- The largest explicit identifier. -/
def maxId : Int := 32767

/-- What the fields read so far have taken. -/
structure Taken where
  names : Namespace := {}
  ids : List (Int × Number) := []
  implicitCount : Nat := 0

/-- The line an identifier was taken on. -/
def Taken.idLine? (taken : Taken) (id : Int) : Option Number :=
  (taken.ids.find? fun claim => claim.1 == id).map (·.2)

/-- The identifier for the next field without one. -/
def Taken.nextImplicit (taken : Taken) : Int := -1 - taken.implicitCount

/-- The warning about a field without an identifier. -/
def implicitIdWarning (field : Field) (id : Int) : JournalEntry :=
  .warning
    ("field \"" ++ field.name ++ "\" has no explicit id; assigned id " ++ toString id)
    field.line

/-- The explicit identifier of a field, if it is in range. -/
def explicitId (field : Field) (id : Number) : Except CompileError Int :=
  match id.toInt? with
  | some value =>
    if minId ≤ value ∧ value ≤ maxId then .ok value
    else .error (.invalidFieldId field.name id)
  | none => .error (.invalidFieldId field.name id)

/-- The identifier of the next field. -/
def chooseId (taken : Taken) (field : Field) : Compilation Int :=
  match field.id with
  | none => do
    Compilation.log (implicitIdWarning field taken.nextImplicit)
    return taken.nextImplicit
  | some id => Compilation.ofExcept (explicitId field id)

/-- Record an identifier as taken. -/
def claimId (taken : Taken) (field : Field) (id : Int) :
    Except CompileError (List (Int × Number)) :=
  match taken.idLine? id with
  | some firstLine => .error (.duplicateFieldId (.ofInt id) field.name firstLine)
  | none => .ok (taken.ids ++ [(id, field.line)])

/-- Check a field against the rules of its group. -/
def checkRules (rules : FieldRules) (field : Field) : Except CompileError Unit :=
  if !rules.defaultsAllowed && field.defaultValue.isSome then
    .error (.illegalDefault field.name)
  else if !rules.requiredAllowed && field.requiredness == some .required then
    .error (.illegalRequiredness field.name)
  else .ok ()

/-- Compile the next field.  The checks are made in the order name, identifier
range, identifier taken, default, requiredness. -/
def compileField (rules : FieldRules) (taken : Taken) (field : Field) :
    Compilation (FieldSpec TypeExpression × Taken) := do
  let names ← Compilation.ofExcept (taken.names.claim field.name field.line)
  let id ← chooseId taken field
  let ids ← Compilation.ofExcept (claimId taken field id)
  Compilation.ofExcept (checkRules rules field)
  let spec : FieldSpec TypeExpression :=
    { id, name := field.name, type := field.type,
      required := field.requiredness == some .required,
      defaultValue := field.defaultValue }
  let implicitCount := taken.implicitCount + if field.id.isNone then 1 else 0
  return (spec, { names, ids, implicitCount })

/-- Compile the remaining fields of a group. -/
def compileAfter (rules : FieldRules) (taken : Taken) :
    List Field → Compilation (List (FieldSpec TypeExpression))
  | [] => return []
  | field :: rest => do
    let (spec, taken) ← compileField rules taken field
    let specs ← compileAfter rules taken rest
    return spec :: specs

/-- Compile a field group. -/
def compile (fields : List Field) (rules : FieldRules := {}) :
    Compilation (List (FieldSpec TypeExpression)) :=
  compileAfter rules {} fields

end FieldGroup

end IdlLinker
