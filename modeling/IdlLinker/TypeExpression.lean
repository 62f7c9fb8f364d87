import IdlLinker.Number

/-!
# Type expressions

A written type is a base type, a name, or a map, list or set of types.  Every
node remembers the line it was written on.
-/

namespace IdlLinker

/-- The base types. -/
inductive BaseType
  | bool
  | byte
  | i8
  | i16
  | i32
  | i64
  | double
  | string
  | binary
  deriving DecidableEq, Repr, Inhabited

namespace BaseType

/-- Every base type, in the order they are listed to users. -/
def all : List BaseType :=
  [.bool, .byte, .i8, .i16, .i32, .i64, .double, .string, .binary]

/-- The written name of a base type. -/
def name : BaseType → String
  | bool => "bool"
  | byte => "byte"
  | i8 => "i8"
  | i16 => "i16"
  | i32 => "i32"
  | i64 => "i64"
  | double => "double"
  | string => "string"
  | binary => "binary"

/-- The base type of a name. -/
def ofName? (text : String) : Option BaseType :=
  all.find? fun base => base.name == text

@[simp]
theorem ofName?_name (base : BaseType) : ofName? base.name = some base := by
  cases base <;> decide

theorem name_of_ofName? {text : String} {base : BaseType}
    (found : ofName? text = some base) : base.name = text := by
  simpa using List.find?_some found

end BaseType

/-- A written type. -/
inductive TypeExpression
  | base (type : BaseType) (line : Number)
  | named (name : String) (line : Number)
  | map (key value : TypeExpression) (line : Number)
  | list (value : TypeExpression) (line : Number)
  | set (value : TypeExpression) (line : Number)
  deriving DecidableEq, Inhabited

end IdlLinker
