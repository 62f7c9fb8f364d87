import IdlLinker.Mention

/-!
# What errors point at

An error about a name or an identifier that is declared twice tells the line of
the first declaration, and an error about a name that stands for nothing tells
the line on which the name is mentioned.
-/

namespace IdlLinker

/-- Something is declared first on a line, and then again. -/
def Repeats {κ : Type} (declared : List (κ × Number)) (key : κ) (line : Number) : Prop :=
  ∃ before between after again,
    declared = before ++ (key, line) :: (between ++ (key, again) :: after) ∧
      key ∉ before.map (·.1)

/-- What is declared and mentioned, with its lines: names and identifiers by the
list in which they are to be distinct, and mentioned names. -/
structure Origins where
  names : List (List (String × Number)) := []
  ids : List (List (Number × Number)) := []
  mentions : List (String × Number) := []

/-- The line of an error is where something was declared or mentioned that
explains it. -/
def CompileError.PointsInto (origins : Origins) : CompileError → Prop
  | duplicateName name line => ∃ declared ∈ origins.names, Repeats declared name line
  | duplicateFieldId id _ line => ∃ declared ∈ origins.ids, Repeats declared id line
  | unresolvedReference name line => (name, line) ∈ origins.mentions
  | _ => True

/-- A name that is mentioned, with its line. -/
def Reference.mention (reference : Reference) : String × Number :=
  (reference.name, reference.line)

/-- The names of fields. -/
def Field.names (fields : List Field) : List (String × Number) :=
  fields.map fun field => (field.name, field.line)

/-- The explicit identifiers of fields. -/
def Field.ids (fields : List Field) : List (Number × Number) :=
  fields.filterMap fun field => field.id.map fun id => (id, field.line)

/-- The names of functions. -/
def Function.names (functions : List Function) : List (String × Number) :=
  functions.map fun function => (function.name, function.line)

/-- The field groups of functions. -/
def Function.fieldGroups (functions : List Function) : List (List Field) :=
  functions.flatMap fun function => [function.parameters, function.exceptions]

/-- The names of enum items. -/
def EnumItem.names (items : List EnumItem) : List (String × Number) :=
  items.map fun item => (item.name, item.line)

namespace Definition

/-- The names of definitions. -/
def names (definitions : List Definition) : List (String × Number) :=
  definitions.map fun definition => (definition.name, definition.line)

/-- The names of the items or functions of a definition. -/
def memberNames : Definition → List (List (String × Number))
  | enum definition => [EnumItem.names definition.items]
  | service definition => [Function.names definition.functions]
  | _ => []

/-- The field groups of a definition. -/
def fieldGroups : Definition → List (List Field)
  | struct definition => [definition.fields]
  | service definition => Function.fieldGroups definition.functions
  | _ => []

end Definition

namespace Origins

/-- What lists of names and field groups declare. -/
def declared (names : List (List (String × Number))) (groups : List (List Field)) : Origins where
  names := names ++ groups.map Field.names
  ids := groups.map Field.ids

/-- What the definitions of a unit declare and mention. -/
def ofUnit (definitions : List Definition) : Origins :=
  { declared (Definition.names definitions :: definitions.flatMap Definition.memberNames)
      (definitions.flatMap Definition.fieldGroups) with
    mentions := (definitions.flatMap Definition.references).map Reference.mention }

end Origins

end IdlLinker
