/-!
# Sixteen-bit units

Columns, offsets and lengths of text are counted in sixteen-bit units: a
character above the basic plane counts twice.
-/

namespace IdlLinker.Text

/-- The number of sixteen-bit units of a character. -/
def unitsOfChar (character : Char) : Nat :=
  if character.val < 0x10000 then 1 else 2

/-- The number of sixteen-bit units of a list of characters. -/
def unitsOfChars (characters : List Char) : Nat :=
  characters.foldr (fun character total => unitsOfChar character + total) 0

/-- The length of a text in sixteen-bit units. -/
def units (text : String) : Nat := unitsOfChars text.toList

@[simp]
theorem unitsOfChars_nil : unitsOfChars [] = 0 := rfl

@[simp]
theorem unitsOfChars_cons (character : Char) (rest : List Char) :
    unitsOfChars (character :: rest) =
      unitsOfChar character + unitsOfChars rest := rfl

theorem unitsOfChars_append (front back : List Char) :
    unitsOfChars (front ++ back) = unitsOfChars front + unitsOfChars back := by
  induction front with
  | nil => simp
  | cons character rest hypothesis => simp [hypothesis, Nat.add_assoc]

/-- The character that stands for half of a character above the basic plane. -/
def halfCharacter : Char := '\ufffd'

/-- The character of two surrogate units. -/
def joinSurrogates (high low : Nat) : Char :=
  Char.ofNat (0x10000 + (high - 0xd800) * 0x400 + (low - 0xdc00))

/-- The first unit of a pair. -/
def isHighSurrogate (unit : Nat) : Bool := 0xd800 ≤ unit && unit ≤ 0xdbff

/-- The second unit of a pair. -/
def isLowSurrogate (unit : Nat) : Bool := 0xdc00 ≤ unit && unit ≤ 0xdfff

/-- The character of a unit that stands alone. -/
def ofUnit (unit : Nat) : Char :=
  if isHighSurrogate unit || isLowSurrogate unit then halfCharacter
  else Char.ofNat unit

/-- Read sixteen-bit units as characters; a surrogate without its partner is
read as the replacement character. -/
def ofUnits : List Nat → List Char
  | [] => []
  | [unit] => [ofUnit unit]
  | unit :: next :: rest =>
    if isHighSurrogate unit && isLowSurrogate next then
      joinSurrogates unit next :: ofUnits rest
    else ofUnit unit :: ofUnits (next :: rest)

/-- The sixteen-bit units of a character. -/
def toUnits (character : Char) : List Nat :=
  let code := character.toNat
  if code < 0x10000 then [code]
  else [0xd800 + (code - 0x10000) / 0x400, 0xdc00 + (code - 0x10000) % 0x400]

end IdlLinker.Text
