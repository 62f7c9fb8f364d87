import IdlLinker.Diagnostic

/-!
# Limits of diagnostics

A limit on diagnostics may be given as any number.  A list that it does not
admit is cut to one less, which is refused for a number that is not a count.
-/

namespace IdlLinker

namespace Number

/-- A number admits a count that is not above it. -/
def admits : Number → Nat → Bool
  | .nan, _ => false
  | .infinite negative, _ => !negative
  | .finite value, count => decide ((count : Rat) ≤ value)

/-- The number that is less by one.  It is exact up to `2 ^ 53`, and no list is
longer than that. -/
def pred : Number → Number
  | .finite value => .finite (value - 1)
  | number => number

end Number

namespace Diagnostic

/-- Distinct diagnostics, no more than a limit that may be any number: a limit
that is not a whole number, or below one, is refused by the cut. -/
def settleWithin (diagnostics : List Diagnostic) (limit : Number) :
    Except LimitFault (List Diagnostic) :=
  let distinct := dedupe diagnostics
  if limit.admits distinct.length then .ok distinct
  else do
    let kept ← cap distinct limit.pred
    return kept ++ [truncated (distinct.length - kept.length)]

end Diagnostic

end IdlLinker
