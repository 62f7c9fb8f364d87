/-!
# Records

The entries of a record have an order: keys that are array indices come first,
in increasing order, and the other keys follow in the order they were first
given.  A key given again keeps its place and takes the later value.
-/

namespace IdlLinker.Record

variable {α : Type}

/-- The number of array indices, `2 ^ 32 - 1`. -/
def indexCount : Nat := 0xffffffff

/-- The number that digits stand for. -/
def ofDigits (digits : List Char) : Nat :=
  digits.foldl (fun number digit => 10 * number + (digit.toNat - '0'.toNat)) 0

/-- Decimal digits without leading zeros. -/
def isDecimal : List Char → Bool
  | [] => false
  | ['0'] => true
  | first :: rest => first != '0' && (first :: rest).all Char.isDigit

/-- The index a key is, when it is the decimal text of an array index. -/
def indexOf? (key : String) : Option Nat :=
  if isDecimal key.toList && ofDigits key.toList < indexCount then some (ofDigits key.toList)
  else none

/-- Set the value of a key, in its old place or at the end. -/
def put (entries : List (String × α)) (key : String) (value : α) :
    List (String × α) :=
  if entries.any (fun entry => entry.1 == key) then
    entries.map fun entry => if entry.1 == key then (key, value) else entry
  else entries ++ [(key, value)]

/-- Put an entry with an index key among others in increasing order. -/
def insertIndexed (entry : String × α) : List (String × α) → List (String × α)
  | [] => [entry]
  | first :: rest =>
    if (indexOf? entry.1).getD 0 ≤ (indexOf? first.1).getD 0 then entry :: first :: rest
    else first :: insertIndexed entry rest

/-- Entries with the index keys in front, in increasing order. -/
def arrange (entries : List (String × α)) : List (String × α) :=
  (entries.filter fun entry => (indexOf? entry.1).isSome).foldr insertIndexed [] ++
    entries.filter fun entry => (indexOf? entry.1).isNone

/-- The record of a sequence of assignments. -/
def ofEntries (entries : List (String × α)) : List (String × α) :=
  arrange (entries.foldl (fun made entry => put made entry.1 entry.2) [])

/-- The value of a key. -/
def get? (entries : List (String × α)) (key : String) : Option α :=
  (entries.find? fun entry => entry.1 == key).map (·.2)

end IdlLinker.Record
