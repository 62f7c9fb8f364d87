import IdlLinker.Number.Binary64

/-!
# Shortest decimal text

A finite number is written with the fewest decimal digits that read back as
that number, and among those the ones nearest to it.  The digits come first;
where the point goes and when an exponent is written is one `Layout` value.
-/

namespace IdlLinker.Number

/-- A decimal `digits * 10 ^ exponent`. -/
structure Decimal where
  digits : Nat
  exponent : Int

/-- A power of ten as a rational. -/
def powerOfTen (exponent : Int) : Rat :=
  if 0 ≤ exponent then ((Nat.pow 10 exponent.toNat : Nat) : Rat)
  else mkRat 1 (Nat.pow 10 (-exponent).toNat)

/-- Drop zeros at the end of the digits into the exponent. -/
def Decimal.strip (decimal : Decimal) : Decimal :=
  if decimal.digits = 0 then decimal
  else if decimal.digits % 10 = 0 then
    Decimal.strip ⟨decimal.digits / 10, decimal.exponent + 1⟩
  else decimal
termination_by decimal.digits
decreasing_by omega

/-- The place of the decimal point: a positive magnitude is below ten to this
power and not below a tenth of it. -/
def decimalPoint (magnitude : Rat) : Int :=
  let shifted := magnitude.num.natAbs * Nat.pow 10 400 / magnitude.den
  ((Nat.toDigits 10 shifted).length : Int) - 400

/-- Whether a rational reads back as the given positive number: it lies
between the midpoints to the two neighbours, ends included for an even
significand. -/
def readsBack (magnitude candidate : Rat) : Bool :=
  let (significand, exponent) := decompose magnitude
  let below :=
    if significand = leadingBit && decide (-1074 < exponent) then
      scaled (4 * significand - 1) (exponent - 2)
    else scaled (4 * significand - 2) (exponent - 2)
  let above := scaled (4 * significand + 2) (exponent - 2)
  if significand % 2 = 0 then decide (below ≤ candidate) && decide (candidate ≤ above)
  else decide (below < candidate) && decide (candidate < above)

/-- The decimal of `count` digits nearest to a magnitude with its decimal point
at `point`, if one of its two neighbours on that grid reads back. -/
def onGrid? (magnitude : Rat) (point : Int) (count : Nat) : Option Decimal :=
  let exponent := point - count
  let unit := powerOfTen exponent
  let low := (magnitude / unit).floor.toNat
  let lowGap := magnitude - low * unit
  let highGap := (low + 1 : Nat) * unit - magnitude
  let lowReads := readsBack magnitude (low * unit)
  let highReads := readsBack magnitude ((low + 1 : Nat) * unit)
  if lowReads && highReads then
    let takeLow := decide (lowGap < highGap) || (decide (lowGap = highGap) && low % 2 = 0)
    some ⟨if takeLow then low else low + 1, exponent⟩
  else if lowReads then some ⟨low, exponent⟩
  else if highReads then some ⟨low + 1, exponent⟩
  else none

/-- The shortest decimal that reads back as a positive number. -/
def shortest (magnitude : Rat) : Decimal :=
  let point := decimalPoint magnitude
  let attempt := ((List.range 17).map (· + 1)).findSome? (onGrid? magnitude point)
  (attempt.getD ⟨0, 0⟩).strip

/-- Where a decimal is written without an exponent. -/
structure Layout where
  /-- The point may stand at most this many digits to the right. -/
  rightmost : Int
  /-- The point may stand at most this many zeros to the left. -/
  leftmost : Int

/-- Numbers below `10 ^ 21` and from `10 ^ -6` on are written positionally. -/
def layout : Layout := ⟨21, -5⟩

/-- Digits of a decimal set out under a layout. -/
def Decimal.text (decimal : Decimal) (layout : Layout) : String :=
  let digits := Nat.toDigits 10 decimal.digits
  let count : Int := digits.length
  let point := decimal.exponent + count
  if count ≤ point && point ≤ layout.rightmost then
    String.ofList (digits ++ List.replicate (point - count).toNat '0')
  else if 0 < point && point ≤ layout.rightmost then
    String.ofList (digits.take point.toNat ++ '.' :: digits.drop point.toNat)
  else if layout.leftmost ≤ point && point ≤ 0 then
    String.ofList ('0' :: '.' :: List.replicate (-point).toNat '0' ++ digits)
  else
    let tail := digits.drop 1
    let fraction := if tail.isEmpty then [] else '.' :: tail
    let power := point - 1
    let sign := if power < 0 then '-' else '+'
    String.ofList (digits.take 1 ++ fraction ++ 'e' :: sign :: Nat.toDigits 10 power.natAbs)

/-- All digits of an integer below `2 ^ 53` are needed: every other integer
is further away than the midpoints to its neighbours. -/
def exactBound : Nat := 0x20000000000000

/-- The text of a number in messages and in keys. -/
def text : Number → String
  | .nan => "NaN"
  | .infinite negative => if negative then "-Infinity" else "Infinity"
  | .finite value =>
    if value.den = 1 && decide (value.num.natAbs < exactBound) then toString value.num
    else if value < 0 then "-" ++ (shortest (-value)).text layout
    else (shortest value).text layout

end IdlLinker.Number
