import IdlLinker.Diagnostic
import IdlLinker.Name
import IdlLinker.Noted
import IdlLinker.Yaml.Parsed

/-!
# Located data

The data of a document with the lines it was written on: every record outside
default values gets the line of its mapping, unless it has a line of its own,
and a bare name in an enum becomes a record with its line.  Aliases are
reported; default values are taken as plain data, whatever they hold.
-/

namespace IdlLinker.Load

open Value (lineKey)
open Yaml (Node Parsed)

/-- The key of values that are taken plainly. -/
def defaultKey : String := "default"

/-- The path of the items of an enum. -/
def isItemsPath (path : String) : Bool :=
  match Name.segments path.toList with
  | [document, definitions, position, items] =>
    document == "document".toList && definitions == "definitions".toList &&
      !position.isEmpty && position.all Char.isDigit && items == "items".toList
  | _ => false

/-- The report of an alias. -/
def unsupportedAlias (path name : String) (line : Option Number) : Diagnostic where
  code := "IDL_DOC_ALIAS_UNSUPPORTED"
  path
  severity := .error
  message := "YAML alias \"*" ++ name ++ "\" is not supported in definition documents."
  line

/-- The entry that tells a line. -/
def lineEntry (line : Option Number) : List (String × Value) :=
  line.toList.map fun line => (lineKey, .number line)

/-- Add a line to the entries of a record that has none. -/
def stamp (line : Option Number) (entries : List (String × Value)) : List (String × Value) :=
  if entries.any (fun entry => entry.1 == lineKey) then entries else entries ++ lineEntry line

/-- The record of a bare enum item. -/
def bareItem (name : String) (line : Option Number) : Value :=
  .record (("name", .text name) :: lineEntry line)

/-- The path of a part. -/
def pathOf (path segment : String) : String := path ++ "." ++ segment

section Located

variable (document : Parsed)

mutual

/-- The data of a node with its lines.  A pair that is an item is passed on as it
is. -/
def located (path : String) : Node → Noted Diagnostic Value
  | .aliased name start => ⟨.null, [unsupportedAlias path name (start.map document.lineAt)]⟩
  | .scalar content _ => pure content.toValue
  | .mapping pairs start => do
    let entries ← locatedPairs path pairs
    return .record (Record.ofEntries (stamp (start.map document.lineAt) entries))
  | .sequence items _ => do
    let values ← locatedItems path 0 items
    return .list values
  | .pair _ _ object => pure object.data

/-- The entries of a mapping with their lines. -/
def locatedPairs (path : String) :
    List (Node × Option Node) → Noted Diagnostic (List (String × Value))
  | [] => pure []
  | (key, none) :: rest => do
    let others ← locatedPairs path rest
    return (document.keyText key, .null) :: others
  | (key, some value) :: rest => do
    let first ←
      if document.keyText key = defaultKey then pure (document.plain value)
      else located (pathOf path (document.keyText key)) value
    let others ← locatedPairs path rest
    return (document.keyText key, first) :: others

/-- The items of a sequence with their lines, from a position on. -/
def locatedItems (path : String) :
    (position : Nat) → List Node → Noted Diagnostic (List Value)
  | _, [] => pure []
  | position, .scalar (.text name) start :: rest => do
    let others ← locatedItems path (position + 1) rest
    return (if isItemsPath path then bareItem name (start.map document.lineAt)
      else .text name) :: others
  | position, item :: rest => do
    let first ← located (pathOf path (toString position)) item
    let others ← locatedItems path (position + 1) rest
    return first :: others

end

end Located

end IdlLinker.Load
