import IdlLinker.Number.Shortest
import IdlLinker.Value

/-!
# Nodes

A YAML document as it is read consists of nodes: aliases, scalars, mappings and
sequences, each with the offset at which it starts if it has one.  The value of
a key may be missing, and a sequence that is tagged as a list of pairs has pairs
for its items.
-/

namespace IdlLinker.Yaml

/-- The content of a scalar.  A tag may ask for data of another kind, which also
has a text as a key. -/
inductive Scalar
  | null
  | boolean (value : Bool)
  | number (value : Number)
  | text (value : String)
  | other (object : Foreign) (spelling : String)

namespace Scalar

/-- The scalar as a piece of data. -/
def toValue : Scalar → Value
  | null => .null
  | boolean value => .boolean value
  | number value => .number value
  | text value => .text value
  | other object _ => object.data

/-- The text of a scalar as a key. -/
def keyText : Scalar → String
  | null => "null"
  | boolean value => toString value
  | number value => value.text
  | text value => value
  | other _ spelling => spelling

end Scalar

/-- A node and the offset at which it starts.  A pair that is an item is an object
of the reader's. -/
inductive Node
  | aliased (name : String) (start : Option Nat)
  | scalar (content : Scalar) (start : Option Nat)
  | mapping (pairs : List (Node × Option Node)) (start : Option Nat)
  | sequence (items : List Node) (start : Option Nat)
  | pair (key : Node) (value : Option Node) (object : Foreign)

/-- The offset at which a node starts. -/
def Node.start : Node → Option Nat
  | aliased _ start => start
  | scalar _ start => start
  | mapping _ start => start
  | sequence _ start => start
  | pair _ _ _ => none

end IdlLinker.Yaml
