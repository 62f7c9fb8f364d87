/-!
# Entities

A unit registers types and services under separate names.
-/

namespace IdlLinker

/-- Whether something is a type or a service. -/
inductive EntityKind
  | type
  | service
  deriving DecidableEq, Repr, Inhabited

/-- The word for a kind of entity. -/
def EntityKind.word : EntityKind → String
  | .type => "type"
  | .service => "service"

end IdlLinker
