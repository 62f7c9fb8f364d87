import IdlLinker.Noted
import IdlLinker.Yaml.Fault

/-!
# Results with reports

Reading a stream gives a result in any case, with reports of the faults that
were found.
-/

namespace IdlLinker.Yaml

/-- A result and the faults found on the way to it. -/
abbrev Reported (α : Type) := Noted Report α

/-- Report a fault at an offset. -/
def report (offset : Nat) (fault : Fault) : Reported Unit := Noted.note ⟨offset, fault⟩

/-- Report a fault at an offset if a condition holds. -/
def reportIf (condition : Bool) (offset : Nat) (fault : Fault) : Reported Unit :=
  if condition then report offset fault else pure ()

end IdlLinker.Yaml
