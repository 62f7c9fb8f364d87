import IdlLinker.Number.Shortest
import Mathlib.Algebra.Order.Field.Rat

/-!
# Reading numbers

What the text of a magnitude says: digits with a point among them or without
one, and a power of ten behind them or none.
-/

namespace IdlLinker.Number

/-- A number is one of the format: rounding leaves it as it is. -/
def IsBinary64 : Number → Prop
  | .finite value => nearest value = .finite value
  | _ => True

instance (number : Number) : Decidable number.IsBinary64 :=
  match number with
  | .finite value => inferInstanceAs (Decidable (nearest value = .finite value))
  | .nan => inferInstanceAs (Decidable True)
  | .infinite _ => inferInstanceAs (Decidable True)

/-- The rational that a decimal is. -/
def Decimal.value (decimal : Decimal) : Rat :=
  decimal.digits * (10 : Rat) ^ decimal.exponent

/-- What digits say, with a point among them or without one. -/
def mantissaOf (characters : List Char) : Rat :=
  let whole := characters.takeWhile (· ≠ '.')
  let fraction := (characters.dropWhile (· ≠ '.')).tail
  Nat.ofDigitChars 10 (whole ++ fraction) 0 * (10 : Rat) ^ (-(fraction.length : Int))

/-- The power of ten that a letter and a signed number ask for. -/
def exponentOf : List Char → Int
  | _ :: '-' :: digits => -(Nat.ofDigitChars 10 digits 0 : Int)
  | _ :: _ :: digits => Nat.ofDigitChars 10 digits 0
  | _ => 0

/-- What a text without a sign says. -/
def magnitudeOf (characters : List Char) : Rat :=
  mantissaOf (characters.takeWhile (· ≠ 'e')) *
    (10 : Rat) ^ exponentOf (characters.dropWhile (· ≠ 'e'))

end IdlLinker.Number
