import IdlLinker.Mention
import IdlLinker.Written.Meaning

/-!
# Positions of types

The places of a written document at which types stand, in the order in which
they are read.  The steps to a place give its dotted path, and that is what a
report about the text at the place names.
-/

namespace IdlLinker

/-- The dotted path of the steps from a path on. -/
def PathStep.pathFrom (path : String) (steps : List PathStep) : String :=
  steps.foldl (fun path step => path ++ "." ++ step.text) path

namespace Written

/-- A place where a type stands: the steps to it, its text, and the line of what
the type belongs to. -/
structure TypePosition where
  steps : List PathStep
  expression : String
  line : Number

namespace TypePosition

/-- A place in a part, as a place in the whole. -/
def under (steps : List PathStep) (position : TypePosition) : TypePosition :=
  { position with steps := steps ++ position.steps }

/-- The dotted path of a place in a document. -/
def path (position : TypePosition) : String := PathStep.pathFrom "document" position.steps

/-- The text at a place is no type. -/
def Rejected (position : TypePosition) : Prop :=
  ∃ rejection, TypeExpression.parse position.expression position.line = .error rejection

/-- The report of a place whose text is no type. -/
def report? (position : TypePosition) : Option Diagnostic :=
  match TypeExpression.parse position.expression position.line with
  | .ok _ => none
  | .error rejection => some (rejectedType position.path position.line rejection.message)

/-- The places in the items of a list under a key. -/
def inEach {α : Type} (key : String) (positions : α → List TypePosition) (items : List α) :
    List TypePosition :=
  items.zipIdx.flatMap fun entry =>
    (positions entry.1).map (under [.key key, .index entry.2])

end TypePosition

open TypePosition (inEach)

/-- The place of the type of a field. -/
def Field.typePositions (field : Field) : List TypePosition :=
  [⟨[.key "type"], field.type, field.line⟩]

/-- The places of types in a function: what it returns, its arguments, and what
it throws. -/
def Function.typePositions (function : Function) : List TypePosition :=
  (function.returns.toList.map fun expression => ⟨[.key "returns"], expression, function.line⟩) ++
    inEach "args" Field.typePositions function.args ++
      inEach "throws" Field.typePositions function.throws

/-- The places of types in a definition. -/
def Definition.typePositions : Definition → List TypePosition
  | .struct body => inEach "fields" Field.typePositions body.fields
  | .typedef body => [⟨[.key "type"], body.type, body.line⟩]
  | .enum _ => []
  | .service body => inEach "functions" Function.typePositions body.functions

/-- The places of types in a document. -/
def Document.typePositions (document : Document) : List TypePosition :=
  inEach "definitions" Definition.typePositions document.definitions

end Written

end IdlLinker
