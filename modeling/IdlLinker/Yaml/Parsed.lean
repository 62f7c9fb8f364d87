import IdlLinker.Yaml.Node

/-!
# Parsed documents

Loading does not read YAML itself.  It is given a parsed document: the content
as nodes, the errors that were found, the line of each offset, and what nodes
say of themselves, their texts and their plain data.
-/

namespace IdlLinker.Yaml

/-- An error that a reader of YAML found: its message, and its line if it has a
place. -/
structure ReadError where
  message : String
  line : Option Number
  deriving DecidableEq

/-- A text as it was read.  `nodeText` is the text of a node that is no scalar, and
`plain` the data that a node stands for. -/
structure Parsed where
  content : Option Node
  errors : List ReadError
  lineAt : Nat → Number
  nodeText : Node → String
  plain : Node → Value

/-- What reads a text as YAML. -/
abbrev Reader := String → Parsed

namespace Parsed

variable (document : Parsed)

/-- The line on which a node starts. -/
def lineOf? (node : Node) : Option Number := node.start.map document.lineAt

/-- The text of a node as a key. -/
def keyText : Node → String
  | .scalar content _ => content.keyText
  | node => document.nodeText node

/-- Nodes are read plainly: an alias is a record of its name, a scalar is what it
says, a sequence is a list of the data of its items, and a mapping is a record
with the data of its values under the texts that `keyOf` gives for its keys.
Nothing is said of pairs and of data of another kind. -/
structure ReadsPlainly (keyOf : Node → String) : Prop where
  aliased : ∀ name start,
    document.plain (.aliased name start) = .record [("source", .text name)]
  scalar : ∀ content start, (∀ object spelling, content ≠ .other object spelling) →
    document.plain (.scalar content start) = content.toValue
  sequence : ∀ items start,
    document.plain (.sequence items start) = .list (items.map document.plain)
  mapping : ∀ pairs start,
    document.plain (.mapping pairs start) = .record (Record.ofEntries (pairs.map fun pair =>
      (keyOf pair.1, (pair.2.map document.plain).getD .null)))

end Parsed

end IdlLinker.Yaml
