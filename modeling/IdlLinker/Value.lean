import IdlLinker.Number
import IdlLinker.Record

/-!
# Values

The data of a document before it has a meaning, and the constants that fields
take as defaults: null, booleans, numbers, texts, lists and records.  Data of a
kind that documents have no use for, such as a date or a set, is known by the
word for its kind alone.
-/

namespace IdlLinker

/-- A piece of data. -/
inductive Value
  | null
  | boolean (value : Bool)
  | number (value : Number)
  | text (value : String)
  | list (items : List Value)
  | record (entries : List (String × Value))
  | other (word : String)
  deriving Inhabited

namespace Value

/-- The kinds of data that a document's shape tells apart. -/
inductive Kind
  | null
  | boolean
  | number
  | nan
  | string
  | array
  | object
  | other (word : String)
  deriving DecidableEq, Repr

/-- The kind of a value. -/
def kind : Value → Kind
  | null => .null
  | boolean _ => .boolean
  | number .nan => .nan
  | number _ => .number
  | text _ => .string
  | list _ => .array
  | record _ => .object
  | other word => .other word

/-- The word for a kind. -/
def Kind.word : Kind → String
  | .null => "null"
  | .boolean => "boolean"
  | .number => "number"
  | .nan => "nan"
  | .string => "string"
  | .array => "array"
  | .object => "object"
  | .other word => word

/-- The entry of a record under a key; other values have none. -/
def get? (value : Value) (key : String) : Option Value :=
  match value with
  | record entries => Record.get? entries key
  | _ => none

/-- The item of a list at a position; other values have none. -/
def item? (value : Value) (index : Nat) : Option Value :=
  match value with
  | list items => items[index]?
  | _ => none

/-- The key under which a record holds its line. -/
def lineKey : String := "line"

mutual

/-- No record in a value has a line. -/
def lineless : Value → Bool
  | list items => linelessItems items
  | record entries => linelessEntries entries
  | _ => true

/-- No record in the items of a list has a line. -/
def linelessItems : List Value → Bool
  | [] => true
  | item :: rest => lineless item && linelessItems rest

/-- No entry is a line, and no record in the entries has one. -/
def linelessEntries : List (String × Value) → Bool
  | [] => true
  | (key, value) :: rest => key != lineKey && lineless value && linelessEntries rest

end

end Value

/-- Data that no document writes itself: it is of a kind of its own, or it is an
object of the reader's, such as bytes or a pair, and says nothing of lines. -/
structure Foreign where
  data : Value
  object : data.kind = .object ∨ ∃ word, data.kind = .other word
  lineless : data.lineless = true

end IdlLinker
