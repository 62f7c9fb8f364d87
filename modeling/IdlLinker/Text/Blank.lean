/-!
# Blank characters

White space between the tokens of a type expression: the control characters
from tab to carriage return, the space separators, the line and paragraph
separators and the byte order mark.
-/

namespace IdlLinker.Text

/-- Code point ranges of white space, ends included. -/
def blankRanges : List (Nat × Nat) :=
  [(0x09, 0x0d), (0x20, 0x20), (0xa0, 0xa0), (0x1680, 0x1680),
   (0x2000, 0x200a), (0x2028, 0x2029), (0x202f, 0x202f), (0x205f, 0x205f),
   (0x3000, 0x3000), (0xfeff, 0xfeff)]

/-- A character is blank when its code point is in one of the ranges. -/
def isBlank (character : Char) : Bool :=
  blankRanges.any fun (low, high) =>
    low ≤ character.toNat && character.toNat ≤ high

end IdlLinker.Text
