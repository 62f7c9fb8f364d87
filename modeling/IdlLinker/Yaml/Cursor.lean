import IdlLinker.Yaml.Token

/-!
# Cursors

A cursor walks over the characters of a stream and remembers what the next cut
depends on: how far the next line must be indented to go on with a scalar, how
deep the flow collections are nested, and whether a colon would end a key that
needs no blank after it.  A cut takes the text up to a place as one lexeme.
-/

namespace IdlLinker.Yaml

/-- The end of the stream or a blank character. -/
def isEmptyAt : Option Char → Bool
  | none => true
  | some character =>
    character == ' ' || character == '\n' || character == '\r' || character == '\t'

/-- The characters that separate the parts of a flow collection. -/
def isFlowIndicator (character : Char) : Bool :=
  character == ',' || character == '[' || character == ']' ||
    character == '\x7b' || character == '\x7d'

/-- The end of an anchor or alias name. -/
def endsAnchor (character : Char) : Bool :=
  isFlowIndicator character || isEmptyAt (some character)

/-- A space or a tab. -/
def isInlineBlank (character : Char) : Bool := character == ' ' || character == '\t'

/-- A hexadecimal digit. -/
def isHexDigit (character : Char) : Bool :=
  character.isDigit || ('a' ≤ character && character ≤ 'f') ||
    ('A' ≤ character && character ≤ 'F')

/-- A character of a shorthand tag. -/
def isTagCharacter (character : Char) : Bool :=
  character.isAlphanum || "-#;/?:@&=+$_.!~*'()".toList.contains character

/-- A place in a stream, and what the next cut depends on. -/
structure Cursor where
  source : Array Char
  position : Nat := 0
  indentNext : Nat := 0
  indentValue : Nat := 0
  flowLevel : Nat := 0
  flowKey : Bool := false
  lexemes : Array Lexeme := #[]

/-- The first place from a place on where a test fails, or the end. -/
def skipWhile (source : Array Char) (test : Char → Bool) (place : Nat) : Nat :=
  if within : place < source.size then
    if test source[place] then skipWhile source test (place + 1) else place
  else place
termination_by source.size - place

/-- The first place of a character from a place on. -/
def find? (source : Array Char) (character : Char) (place : Nat) : Option Nat :=
  let found := skipWhile source (· != character) place
  if found < source.size then some found else none

/-- Three equal characters that mark the start or the end of a document. -/
def isMarker (source : Array Char) (character : Char) (place : Nat) : Bool :=
  source[place]? == some character && source[place + 1]? == some character &&
    source[place + 2]? == some character && isEmptyAt source[place + 3]?

/-- A document marker stands at a place. -/
def atMarker (source : Array Char) (place : Nat) : Bool :=
  isMarker source '-' place || isMarker source '.' place

namespace Cursor

/-- The character at a distance from the cursor. -/
def peek (cursor : Cursor) (distance : Nat := 0) : Option Char :=
  cursor.source[cursor.position + distance]?

/-- The text between the cursor and a place. -/
def textTo (cursor : Cursor) (stop : Nat) : String :=
  String.ofList (cursor.source.extract cursor.position stop).toList

/-- Cut a lexeme up to a place; nothing is cut where nothing lies between. -/
def cut (cursor : Cursor) (stop : Nat) : Cursor :=
  if cursor.position < stop then
    let text := cursor.textTo stop
    { cursor with
      position := stop
      lexemes := cursor.lexemes.push ⟨.ofText text, text⟩ }
  else cursor

/-- Cut the content of a scalar, which may be empty. -/
def cutScalar (cursor : Cursor) (stop : Nat) : Cursor :=
  { cursor with
    position := max cursor.position stop
    lexemes := cursor.lexemes.push ⟨.scalar, cursor.textTo stop⟩ }

/-- Cut a number of characters. -/
def cutCount (cursor : Cursor) (count : Nat) : Cursor :=
  cursor.cut (cursor.position + count)

/-- Announce something that takes no room. -/
def announce (cursor : Cursor) (kind : TokenKind) : Cursor :=
  { cursor with lexemes := cursor.lexemes.push ⟨kind, kind.mark⟩ }

/-- Cut the spaces, and the tabs among them if they are allowed. -/
def cutSpaces (cursor : Cursor) (tabs : Bool) : Cursor :=
  cursor.cut (skipWhile cursor.source
    (fun character => character == ' ' || (tabs && character == '\t')) cursor.position)

/-- Cut a line end. -/
def cutNewline (cursor : Cursor) : Cursor :=
  match cursor.peek with
  | some '\n' => cursor.cutCount 1
  | some '\r' => if cursor.peek 1 == some '\n' then cursor.cutCount 2 else cursor
  | _ => cursor

/-- The end of the line, before the carriage return of its line end. -/
def lineStop (cursor : Cursor) : Nat :=
  match find? cursor.source '\n' cursor.position with
  | none => cursor.source.size
  | some stop =>
    if cursor.position < stop && cursor.source[stop - 1]? == some '\r' then stop - 1 else stop

/-- A line end or the end of the stream. -/
def atBreak (cursor : Cursor) : Bool :=
  match cursor.peek with
  | none => true
  | some '\n' => true
  | some '\r' => cursor.peek 1 == some '\n'
  | _ => false

/-- Nothing but blanks and a comment is left on the line. -/
def atLineEnd (cursor : Cursor) : Bool :=
  let place := skipWhile cursor.source isInlineBlank cursor.position
  match cursor.source[place]? with
  | none => true
  | some '#' => true
  | some '\n' => true
  | some '\r' => cursor.source[place + 1]? == some '\n'
  | _ => false

/-- Where a scalar goes on in the line that starts at a place: after its
indentation.  It does not go on in a line that is indented too little and not
blank, or in a document marker at the outermost level. -/
def continuation? (cursor : Cursor) (place : Nat) : Option Nat :=
  let source := cursor.source
  if 0 < cursor.indentNext then
    let stop := skipWhile source (· == ' ') place
    if source[stop]? == some '\r' && source[stop + 1]? == some '\n' then some (stop + 1)
    else if source[stop]? == some '\n' || cursor.indentNext ≤ stop - place then some stop
    else none
  else if atMarker source place then none
  else some place

end Cursor

end IdlLinker.Yaml
