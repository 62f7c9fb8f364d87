/-!
# Numbers

Lines, field identifiers, enum values and constants are binary64 numbers.
This module holds the type alone: a number is not a number, infinite, or an
exact rational.  The two zeros are one number here, since no answer tells them
apart.  Rounding a rational to a representable one, the bit patterns and the
decimal text are in the modules below this one.
-/

namespace IdlLinker

/-- A binary64 number with its exact value. -/
inductive Number
  | nan
  | infinite (negative : Bool)
  | finite (value : Rat)
  deriving DecidableEq, Inhabited

namespace Number

/-- The number of an integer small enough to be exact. -/
def ofInt (value : Int) : Number := .finite value

/-- The number of a natural number small enough to be exact. -/
def ofNat (value : Nat) : Number := .finite (value : Int)

/-- The integer a number is, if it is one. -/
def toInt? : Number → Option Int
  | .finite value => if value.den = 1 then some value.num else none
  | _ => none

/-- A number is an integer when it is finite and has no fractional part. -/
def isInteger (number : Number) : Bool := number.toInt?.isSome

/-- A number above zero; infinity counts, not-a-number does not. -/
def isPositive : Number → Bool
  | .nan => false
  | .infinite negative => !negative
  | .finite value => decide (0 < value)

@[simp]
theorem toInt?_ofInt (value : Int) : (ofInt value).toInt? = some value := by
  simp [ofInt, toInt?]

@[simp]
theorem toInt?_nan : nan.toInt? = none := rfl

@[simp]
theorem toInt?_infinite (negative : Bool) :
    (infinite negative).toInt? = none := rfl

theorem eq_ofInt_of_toInt? {number : Number} {value : Int}
    (read : number.toInt? = some value) : number = ofInt value := by
  cases number with
  | nan => simp at read
  | infinite => simp at read
  | finite rational =>
    simp only [toInt?] at read
    split at read
    · rename_i whole
      obtain rfl := Option.some.inj read
      simp only [ofInt, finite.injEq]
      exact Rat.ext (by simp) (by simp [whole])
    · simp at read

end Number

end IdlLinker
