/-!
# Lines

Characters cut at line feeds.  There is always one line more than there are
line feeds.
-/

namespace IdlLinker.Text

/-- Put a character in front of the first line. -/
def extendFirst (character : Char) : List (List Char) → List (List Char)
  | [] => [[character]]
  | line :: rest => (character :: line) :: rest

/-- The lines of a list of characters. -/
def lines : List Char → List (List Char)
  | [] => [[]]
  | character :: rest =>
    if character = '\n' then [] :: lines rest else extendFirst character (lines rest)

end IdlLinker.Text
