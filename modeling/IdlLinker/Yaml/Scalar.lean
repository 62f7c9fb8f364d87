import IdlLinker.Number.Binary64
import IdlLinker.Yaml.Node

/-!
# The forms of scalars

A plain scalar is null, a boolean or a number if its text has the form of one,
and a text otherwise.  A tag asks for one of these forms; a text without that
form stays a text.
-/

namespace IdlLinker.Yaml

namespace Scalar

/-- Two scalars are the same key; not-a-number is never the same as itself, and
data of another kind is not compared. -/
def sameKey : Scalar → Scalar → Bool
  | null, null => true
  | boolean first, boolean second => first == second
  | number .nan, number _ => false
  | number first, number second => decide (first = second)
  | text first, text second => first == second
  | _, _ => false

/-! ## The forms of plain scalars -/

/-- All characters of a list that is not empty pass a test. -/
def isRun (test : Char → Bool) (characters : List Char) : Bool :=
  !characters.isEmpty && characters.all test

/-- The sign in front of a number, and the rest. -/
def splitSign : List Char → Bool × List Char
  | '-' :: rest => (true, rest)
  | '+' :: rest => (false, rest)
  | rest => (false, rest)

/-- The value of a digit in bases up to sixteen. -/
def digitValue (character : Char) : Nat :=
  if character.isDigit then character.toNat - '0'.toNat
  else if 'a' ≤ character then character.toNat - 'a'.toNat + 10
  else character.toNat - 'A'.toNat + 10

/-- The value of digits in a base. -/
def digitsValue (base : Nat) (digits : List Char) : Nat :=
  digits.foldl (fun value digit => base * value + digitValue digit) 0

/-- The form of null. -/
def ofNullForm? (text : String) : Option Scalar :=
  if ["", "~", "null", "Null", "NULL"].contains text then some null else none

/-- The forms of booleans. -/
def ofBooleanForm? (text : String) : Option Scalar :=
  if ["true", "True", "TRUE"].contains text then some (boolean true)
  else if ["false", "False", "FALSE"].contains text then some (boolean false)
  else none

/-- An integer in base eight, ten or sixteen. -/
def ofIntegerForm? (text : String) : Option Scalar :=
  let isOctal (character : Char) : Bool := '0' ≤ character && character ≤ '7'
  let isHex (character : Char) : Bool :=
    character.isDigit || ('a' ≤ character && character ≤ 'f') ||
      ('A' ≤ character && character ≤ 'F')
  let decimal : Option Scalar :=
    let (negative, digits) := splitSign text.toList
    if isRun Char.isDigit digits then
      some (number (Number.ofDecimal negative (digitsValue 10 digits) 0))
    else none
  match text.toList with
  | '0' :: 'o' :: digits =>
    if isRun isOctal digits then
      some (number (Number.nearest ((digitsValue 8 digits : Nat) : Rat)))
    else none
  | '0' :: 'x' :: digits =>
    if isRun isHex digits then
      some (number (Number.nearest ((digitsValue 16 digits : Nat) : Rat)))
    else none
  | _ => decimal

/-- Infinity and not-a-number. -/
def ofSpecialForm? (text : String) : Option Scalar :=
  if [".nan", ".NaN", ".NAN"].contains text then some (number .nan)
  else
    let (negative, rest) := splitSign text.toList
    if [".inf", ".Inf", ".INF"].contains (String.ofList rest) then
      some (number (.infinite negative))
    else none

/-- The exponent of a number, if the characters are one: a letter, a sign and
digits. -/
def exponentOf? : List Char → Option Int
  | letter :: rest =>
    if letter == 'e' || letter == 'E' then
      let (negative, digits) := splitSign rest
      if isRun Char.isDigit digits then
        let size : Int := digitsValue 10 digits
        some (if negative then -size else size)
      else none
    else none
  | [] => none

/-- A number with a point, an exponent or both. -/
def ofDecimalForm? (text : String) : Option Scalar :=
  let (negative, characters) := splitSign text.toList
  let whole := characters.takeWhile Char.isDigit
  let rest := characters.dropWhile Char.isDigit
  let (pointed, fraction, rest) :=
    match rest with
    | '.' :: more => (true, more.takeWhile Char.isDigit, more.dropWhile Char.isDigit)
    | _ => (false, [], rest)
  let scale : Option Int :=
    if rest.isEmpty then if pointed then some 0 else none else exponentOf? rest
  if whole.isEmpty && fraction.isEmpty then none
  else
    scale.map fun exponent =>
      number (Number.ofDecimal negative (digitsValue 10 (whole ++ fraction))
        (exponent - fraction.length))

/-- The number that a text has the form of, with a point or an exponent or
special. -/
def ofFloatForm? (text : String) : Option Scalar :=
  (ofSpecialForm? text).or (ofDecimalForm? text)

/-- The scalar of a plain text. -/
def ofPlain (content : String) : Scalar :=
  ((((ofNullForm? content).or (ofBooleanForm? content)).or (ofIntegerForm? content)).or
    (ofFloatForm? content)).getD (text content)

/-- The scalar of a text with a tag. -/
def ofTagged (tag content : String) : Scalar :=
  let form : Option Scalar :=
    match tag with
    | "tag:yaml.org,2002:null" => ofNullForm? content
    | "tag:yaml.org,2002:bool" => ofBooleanForm? content
    | "tag:yaml.org,2002:int" => ofIntegerForm? content
    | "tag:yaml.org,2002:float" => ofFloatForm? content
    | _ => none
  form.getD (text content)

end Scalar

/-- Two nodes are the same key: both are scalars of one type and value. -/
def Node.sameKey : Node → Node → Bool
  | scalar first _, scalar second _ => first.sameKey second
  | _, _ => false

end IdlLinker.Yaml
