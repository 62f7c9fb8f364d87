import IdlLinker.Value.Compact
import IdlLinker.Yaml.Node

/-!
# Plain data of nodes

Read plainly, a node is a piece of data: an alias becomes a record that names
it, and a collection one of the data in it.  A collection that is a key has its
compact text.
-/

namespace IdlLinker.Yaml.Node

/-- An alias as data: a record of its name. -/
def plainAlias (name : String) : Value := .record [("source", .text name)]

/-- The text of a scalar as a key of a plain record; null is the empty text. -/
def plainKeyOfScalar : Scalar → String
  | .null => ""
  | content => content.keyText

mutual

/-- The data of a node. -/
def plain : Node → Value
  | aliased name _ => plainAlias name
  | scalar content _ => content.toValue
  | mapping pairs _ => .record (Record.ofEntries (plainPairs pairs))
  | sequence items _ => .list (plainItems items)
  | pair _ _ object => object.data

/-- The entries of a mapping as data. -/
def plainPairs : List (Node × Option Node) → List (String × Value)
  | [] => []
  | (key, some value) :: rest => (plainKey key, plain value) :: plainPairs rest
  | (key, none) :: rest => (plainKey key, .null) :: plainPairs rest

/-- The items of a sequence as data. -/
def plainItems : List Node → List Value
  | [] => []
  | item :: rest => plain item :: plainItems rest

/-- The text of a key among data; a collection is written compactly. -/
def plainKey : Node → String
  | scalar content _ => plainKeyOfScalar content
  | aliased name _ => (plainAlias name).compact
  | mapping pairs _ => (Value.record (Record.ofEntries (plainPairs pairs))).compact
  | sequence items _ => (Value.list (plainItems items)).compact
  | pair _ _ object => object.data.compact

end

/-- The text of a node that is no scalar. -/
def text : Node → String
  | aliased name _ => "*" ++ name
  | node => node.plain.compact

theorem plainPairs_eq_map (pairs : List (Node × Option Node)) :
    plainPairs pairs = pairs.map fun pair =>
      (pair.1.plainKey, (pair.2.map plain).getD .null) := by
  induction pairs with
  | nil => rfl
  | cons pair rest hypothesis =>
      rcases pair with ⟨key, _ | value⟩ <;> simp [plainPairs, hypothesis]

theorem plainItems_eq_map (items : List Node) : plainItems items = items.map plain := by
  induction items with
  | nil => rfl
  | cons item rest hypothesis => rw [plainItems, List.map_cons, hypothesis]

end IdlLinker.Yaml.Node
