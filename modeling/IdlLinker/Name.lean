/-!
# Names

A name in a definition is an identifier: an ASCII letter or underscore, then
letters, digits and underscores.  A reference is an identifier or two of them
joined by a dot, and a scope takes a dotted name apart segment by segment.
-/

namespace IdlLinker.Name

/-- A character that may begin an identifier. -/
def isStart (character : Char) : Bool :=
  character.isAlpha || character == '_'

/-- A character that may continue an identifier. -/
def isPart (character : Char) : Bool :=
  character.isAlphanum || character == '_'

/-- An identifier, as a list of characters. -/
def isIdentifierChars : List Char → Bool
  | [] => false
  | first :: rest => isStart first && rest.all isPart

/-- The parts of a name between its dots; a name without a dot is one part. -/
def segments : List Char → List (List Char)
  | [] => [[]]
  | '.' :: rest => [] :: segments rest
  | character :: rest =>
    match segments rest with
    | [] => [[character]]
    | first :: more => (character :: first) :: more

/-- Segments joined by dots. -/
def joinSegments : List (List Char) → List Char
  | [] => []
  | [segment] => segment
  | segment :: next :: more => segment ++ '.' :: joinSegments (next :: more)

/-- A text is an identifier. -/
def isIdentifier (text : String) : Bool := isIdentifierChars text.toList

/-- A text is an identifier or two identifiers joined by a dot. -/
def isQualified (text : String) : Bool :=
  let parts := segments text.toList
  parts.length ≤ 2 && parts.all isIdentifierChars

theorem segments_ne_nil (characters : List Char) : segments characters ≠ [] := by
  fun_induction segments characters <;> simp_all

theorem joinSegments_segments (characters : List Char) :
    joinSegments (segments characters) = characters := by
  fun_induction segments characters with
  | case1 => rfl
  | case2 rest hypothesis =>
    cases parts : segments rest with
    | nil => exact absurd parts (segments_ne_nil rest)
    | cons first more => simp [joinSegments, ← parts, hypothesis]
  | case3 character rest _ parts =>
    exact absurd parts (segments_ne_nil rest)
  | case4 character rest _ first more parts hypothesis =>
    rw [parts] at hypothesis
    cases more with
    | nil => simpa [joinSegments] using hypothesis
    | cons next others => simpa [joinSegments] using hypothesis

end IdlLinker.Name
