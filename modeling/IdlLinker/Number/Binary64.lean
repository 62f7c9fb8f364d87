import IdlLinker.Number

/-!
# Binary64

A nonzero representable number is `significand * 2 ^ exponent` with a
significand below `2 ^ 53` and the exponent never below `-1074`; a significand
below `2 ^ 52` occurs at the lowest exponent only.  Rounding takes the nearest
such number, a tie going to the even significand, and overflows to infinity
from `2 ^ 1024` on.  The bit pattern is sign, eleven exponent bits and
fifty-two bits of significand.
-/

namespace IdlLinker.Number

/-- A quotient rounded to the nearest natural number, ties to even. -/
def roundHalfEven (numerator denominator : Nat) : Nat :=
  let quotient := numerator / denominator
  let twice := 2 * (numerator % denominator)
  if twice < denominator then quotient
  else if denominator < twice then quotient + 1
  else quotient + quotient % 2

/-- The exact rational `significand * 2 ^ exponent`. -/
def scaled (significand : Nat) (exponent : Int) : Rat :=
  if 0 ≤ exponent then ((significand * Nat.pow 2 exponent.toNat : Nat) : Rat)
  else mkRat significand (Nat.pow 2 (-exponent).toNat)

/-- The power of two that the last significand bit of a magnitude counts. -/
def lastBit (numerator denominator : Nat) : Int :=
  let estimate : Int := numerator.log2 - denominator.log2
  let reached : Bool :=
    if 0 ≤ estimate then denominator * Nat.pow 2 estimate.toNat ≤ numerator
    else denominator ≤ numerator * Nat.pow 2 (-estimate).toNat
  let leading := if reached then estimate else estimate - 1
  max (leading - 52) (-1074)

/-- The significand and exponent nearest to a magnitude. -/
def decompose (magnitude : Rat) : Nat × Int :=
  let numerator := magnitude.num.natAbs
  let denominator := magnitude.den
  let exponent := lastBit numerator denominator
  let significand :=
    if 0 ≤ exponent then roundHalfEven numerator (denominator * Nat.pow 2 exponent.toNat)
    else roundHalfEven (numerator * Nat.pow 2 (-exponent).toNat) denominator
  (significand, exponent)

/-- The binary64 number nearest to a rational. -/
def nearest (value : Rat) : Number :=
  if value = 0 then .finite 0
  else
    let (significand, exponent) := decompose value
    let magnitude := scaled significand exponent
    if scaled 1 1024 ≤ magnitude then .infinite (decide (value < 0))
    else .finite (if value < 0 then -magnitude else magnitude)

/-- The number nearest to `digits * 10 ^ exponent`, with a sign in front.
Exponents far outside the range are settled without computing the power. -/
def ofDecimal (negative : Bool) (digits : Nat) (exponent : Int) : Number :=
  if digits = 0 then .finite 0
  else if 400 < exponent then .infinite negative
  else if exponent < -400 - (digits.log2 : Int) then .finite 0
  else
    let magnitude : Rat :=
      if 0 ≤ exponent then ((digits * Nat.pow 10 exponent.toNat : Nat) : Rat)
      else mkRat digits (Nat.pow 10 (-exponent).toNat)
    nearest (if negative then -magnitude else magnitude)

/-- The sign bit of a pattern, `2 ^ 63`. -/
def signBit : Nat := 0x8000000000000000

/-- The leading bit of a significand, `2 ^ 52`, which a pattern leaves out. -/
def leadingBit : Nat := 0x10000000000000

/-- The bit pattern of a number, as a natural number below `2 ^ 64`. -/
def toBits : Number → Nat
  | .nan => 0x7ff8000000000000
  | .infinite negative =>
    (if negative then signBit else 0) + 0x7ff0000000000000
  | .finite value =>
    if value = 0 then 0
    else
      let (significand, exponent) := decompose value
      let sign := if value < 0 then signBit else 0
      if significand < leadingBit then sign + significand
      else sign + (exponent + 1075).toNat * leadingBit + (significand - leadingBit)

/-- The number of a bit pattern. -/
def ofBits (bits : Nat) : Number :=
  let negative := bits / signBit % 2 = 1
  let biased : Nat := bits / leadingBit % 2048
  let fraction := bits % leadingBit
  if biased = 2047 then
    if fraction = 0 then .infinite negative else .nan
  else
    let magnitude :=
      if biased = 0 then scaled fraction (-1074)
      else scaled (leadingBit + fraction) ((biased : Int) - 1075)
    .finite (if negative then -magnitude else magnitude)

end IdlLinker.Number
