import IdlLinker.Value
import IdlLinker.Number.Shortest
import IdlLinker.Text.Quoted

/-!
# Compact text of a value

A value on one line without blanks: texts and keys are quoted, numbers are
written shortest.  A number that is not finite is written as null, and so is data
of another kind.
-/

namespace IdlLinker.Value

/-- A number, or null where there is no finite number to write. -/
def compactNumber : Number → String
  | .finite value => Number.text (.finite value)
  | _ => "null"

mutual

/-- The compact text of a value. -/
def compact : Value → String
  | null => "null"
  | boolean value => if value then "true" else "false"
  | number value => compactNumber value
  | text value => Text.quoted value
  | list items => "[" ++ ",".intercalate (compactItems items) ++ "]"
  | record entries => "\x7b" ++ ",".intercalate (compactEntries entries) ++ "\x7d"
  | other _ => "null"

/-- The compact texts of the items of a list. -/
def compactItems : List Value → List String
  | [] => []
  | item :: rest => compact item :: compactItems rest

/-- The compact texts of the entries of a record. -/
def compactEntries : List (String × Value) → List String
  | [] => []
  | (key, value) :: rest =>
    (Text.quoted key ++ ":" ++ compact value) :: compactEntries rest

end

end IdlLinker.Value
