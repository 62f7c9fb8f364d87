import IdlLinker.Load.Document
import IdlLinker.Yaml.Document

/-!
# Loading texts

Texts are loaded with a reader of the core schema of YAML.  It refuses the types
that this schema does not have, and of each fault it gives the first line of the
message; what loading does besides does not depend on it.
-/

namespace IdlLinker

/-- Load a text. -/
def load (text : String) (limits : Load.Limits := {}) : Load.Outcome :=
  Load.loadWith Yaml.read text limits

end IdlLinker
