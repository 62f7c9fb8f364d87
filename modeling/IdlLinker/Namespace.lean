import IdlLinker.CompileError

/-!
# Namespaces

A namespace holds the names declared so far with their lines.  A name can be
claimed once; claiming it again reports the line of the first claim.
-/

namespace IdlLinker

/-- Declared names with the lines they were declared on. -/
structure Namespace where
  declared : List (String × Number) := []

namespace Namespace

/-- The line a name was declared on. -/
def line? (names : Namespace) (name : String) : Option Number :=
  (names.declared.find? fun claim => claim.1 == name).map (·.2)

/-- Declare a name, unless it was declared before. -/
def claim (names : Namespace) (name : String) (line : Number) :
    Except CompileError Namespace :=
  match names.line? name with
  | some firstLine => .error (.duplicateName name firstLine)
  | none => .ok ⟨names.declared ++ [(name, line)]⟩

end Namespace

end IdlLinker
