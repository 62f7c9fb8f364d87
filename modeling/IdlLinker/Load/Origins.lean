import IdlLinker.Load.Nodes
import IdlLinker.Origins

/-!
# What a document declares and mentions

Definitions, fields, functions and enum items are declared by nodes: mappings,
or bare names for enum items.  What a node declares and mentions has the line
on which the node starts.
-/

namespace IdlLinker.Load

open Yaml (Node Parsed)

/-- The references in the text of a type on a line. -/
def typeReferences (line : Number) (expression : String) : List Reference :=
  match TypeExpression.parse expression line with
  | .ok type => type.references
  | .error _ => []

section Origins

variable (document : Parsed)

/-- The name that a node declares. -/
def declaredName? : Node → Option String
  | .scalar (.text name) _ => some name
  | node => document.text? node "name"

/-- The types that are written in a mapping itself. -/
def writtenTypes (node : Node) : List String :=
  (document.text? node "type").toList ++ (document.text? node "returns").toList

/-- The nodes of the definitions of a document. -/
def definitionNodes : List Node :=
  match document.content with
  | some content => document.parts content "definitions"
  | none => []

/-- The lists of nodes in a definition that declare something: its fields, items
or functions, and the arguments and exceptions of each function. -/
def innerNodes (definition : Node) : List (List Node) :=
  [document.parts definition "fields", document.parts definition "items",
      document.parts definition "functions"] ++
    (document.parts definition "functions").flatMap fun function =>
      [document.parts function "args", document.parts function "throws"]

/-- The lists of nodes in a document that declare something. -/
def documentNamespaces : List (List Node) :=
  definitionNodes document :: (definitionNodes document).flatMap (innerNodes document)

/-- The names that nodes declare, with the lines on which the nodes start. -/
def namesAt (nodes : List Node) : List (String × Number) :=
  nodes.filterMap fun node => do
    let name ← declaredName? document node
    let line ← document.lineOf? node
    return (name, line)

/-- The identifiers that nodes declare. -/
def idsAt (nodes : List Node) : List (Number × Number) :=
  nodes.filterMap fun node => do
    let id ← document.number? node "id"
    let line ← document.lineOf? node
    return (id, line)

/-- The names that a mapping itself mentions: those in its types, and the service
that it extends. -/
def mentionsAt (node : Node) : List (String × Number) :=
  match document.lineOf? node with
  | some line =>
    ((writtenTypes document node).flatMap (typeReferences line)).map Reference.mention ++
      (document.text? node "extends").toList.map fun name => (name, line)
  | none => []

/-- What a document declares and mentions. -/
def documentOrigins : Origins where
  names := (documentNamespaces document).map (namesAt document)
  ids := (documentNamespaces document).map (idsAt document)
  mentions := (documentNamespaces document).flatten.flatMap (mentionsAt document)

end Origins

end IdlLinker.Load
