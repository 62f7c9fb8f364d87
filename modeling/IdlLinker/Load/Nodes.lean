import IdlLinker.Load.Document

/-!
# Nodes of a document

What a node of a document gives under a key.  Keys are compared as texts, and
the later of two equal keys counts.
-/

namespace IdlLinker

namespace Yaml.Parsed

variable (document : Parsed)

/-- A mapping has a key. -/
def has (node : Node) (key : String) : Bool :=
  match node with
  | .mapping pairs _ => pairs.any fun pair => document.keyText pair.1 == key
  | _ => false

/-- The last pair with a key. -/
def lastPair? (pairs : List (Node × Option Node)) (key : String) : Option (Node × Option Node) :=
  pairs.reverse.find? fun pair => document.keyText pair.1 == key

/-- What a mapping gives under a key. -/
def member? (node : Node) (key : String) : Option Node :=
  match node with
  | .mapping pairs _ => (document.lastPair? pairs key).bind (·.2)
  | _ => none

/-- The text that a mapping gives under a key. -/
def text? (node : Node) (key : String) : Option String :=
  match document.member? node key with
  | some (.scalar (.text value) _) => some value
  | _ => none

/-- The number that a mapping gives under a key. -/
def number? (node : Node) (key : String) : Option Number :=
  match document.member? node key with
  | some (.scalar (.number value) _) => some value
  | _ => none

/-- The items that a mapping gives under a key. -/
def parts (node : Node) (key : String) : List Node :=
  match document.member? node key with
  | some (.sequence items _) => items
  | _ => []

end Yaml.Parsed

/-- The data that a document is loaded from. -/
def Load.sourceData (document : Yaml.Parsed) : Value :=
  match document.content with
  | some content => (located document "document" content).value
  | none => blankData

end IdlLinker
