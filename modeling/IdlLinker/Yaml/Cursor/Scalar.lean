import IdlLinker.Yaml.Cursor

/-!
# Cutting scalars

Where a plain, quoted or block scalar ends depends on the lines after it: each
kind goes on in a line that is indented enough, and a plain scalar also ends at
a key's colon, a comment or, inside a flow collection, an indicator.
-/

namespace IdlLinker.Yaml

namespace Cursor

/-- The width of a blank: two for a carriage return with its line feed. -/
def blankWidth (source : Array Char) (place : Nat) : Nat :=
  if source[place]? == some '\r' && source[place + 1]? == some '\n' then 2 else 1

theorem blankWidth_pos (source : Array Char) (place : Nat) : 0 < blankWidth source place := by
  unfold blankWidth
  split <;> omega

/-- The end of a plain scalar: `last` is the end of what certainly belongs to
it, and blanks after that belong to it if more of it follows. -/
def plainStop (cursor : Cursor) (place last : Nat) : Nat :=
  let separates (next : Option Char) : Bool :=
    decide (0 < cursor.flowLevel) && next.any isFlowIndicator
  if within : place < cursor.source.size then
    let character := cursor.source[place]
    if character == ':' then
      let next := cursor.source[place + 1]?
      if isEmptyAt next || separates next then last
      else plainStop cursor (place + 1) (place + 1)
    else if isEmptyAt (some character) then
      let width := blankWidth cursor.source place
      let last := if character == '\r' && width == 1 then place + 1 else last
      let next := cursor.source[place + width]?
      if next == some '#' || separates next then last
      else if character == '\n' || width == 2 then
        match cursor.continuation? (place + width) with
        | none => last
        | some resumed => plainStop cursor (max (place + width) (resumed - 1)) last
      else plainStop cursor (place + width) last
    else if separates (some character) then last
    else plainStop cursor (place + 1) (place + 1)
  else last
termination_by cursor.source.size - place
decreasing_by
  all_goals
    have := blankWidth_pos cursor.source place
    omega

/-- Cut a plain scalar. -/
def cutPlain (cursor : Cursor) : Cursor :=
  cursor.cutScalar (cursor.plainStop cursor.position cursor.position)

/-- The place of the quote that closes a single-quoted scalar. -/
def singleClose? (source : Array Char) (place : Nat) : Option Nat :=
  if _within : place < source.size then
    match find? source '\'' place with
    | none => none
    | some stop =>
      if source[stop + 1]? == some '\'' then
        if _shorter : place < stop + 2 then singleClose? source (stop + 2) else none
      else some stop
  else none
termination_by source.size - place
decreasing_by omega

/-- The place of the quote that closes a double-quoted scalar. -/
def doubleClose? (source : Array Char) (place : Nat) : Option Nat :=
  if within : place < source.size then
    if source[place] == '\\' then doubleClose? source (place + 2)
    else if source[place] == '"' then some place
    else doubleClose? source (place + 1)
  else none
termination_by source.size - place

/-- The first line end before a place after which a scalar does not go on. -/
def brokenLine? (cursor : Cursor) (stop place : Nat) : Option Nat :=
  match find? cursor.source '\n' place with
  | none => none
  | some newline =>
    if newline < stop then
      match cursor.continuation? (newline + 1) with
      | none => some newline
      | some resumed =>
        if _shorter : place < resumed ∧ place < stop then brokenLine? cursor stop resumed
        else none
    else none
termination_by stop - place
decreasing_by omega

/-- Cut a quoted scalar.  One that is not closed takes the rest of the stream,
and one that a line does not go on with is cut at that line's start. -/
def cutQuoted (cursor : Cursor) : Cursor :=
  let source := cursor.source
  let close :=
    if cursor.peek == some '\'' then singleClose? source (cursor.position + 1)
    else doubleClose? source (cursor.position + 1)
  match close with
  | none => cursor.cut source.size
  | some close =>
    match cursor.brokenLine? close cursor.position with
    | none => cursor.cut (close + 1)
    | some newline =>
      cursor.cut (if source[newline - 1]? == some '\r' then newline - 1 else newline)

/-- The header of a block scalar: the indentation written in it, less one, and
whether it keeps the line ends at the end. -/
def blockHeader (cursor : Cursor) : Option Nat × Bool :=
  let rec read (indent : Option Nat) (keep : Bool) : List Char → Option Nat × Bool
    | '+' :: rest => read indent true rest
    | '-' :: rest => read indent keep rest
    | character :: rest =>
      if '0' < character && character ≤ '9' then
        read (some (character.toNat - '0'.toNat - 1)) keep rest
      else (indent, keep)
    | [] => (indent, keep)
  read none false (cursor.source.extract (cursor.position + 1) cursor.lineStop).toList

/-- The line end before the first line with content, if there is one from
`start` on, and the indentation of that line. -/
def leadingLines (source : Array Char) (place : Nat) (newline : Option Nat) (indent : Nat) :
    Option Nat × Nat :=
  if within : place < source.size then
    let character := source[place]
    if character == ' ' then leadingLines source (place + 1) newline (indent + 1)
    else if character == '\n' then leadingLines source (place + 1) (some place) 0
    else if character == '\r' && source[place + 1]? == some '\n' then
      leadingLines source (place + 1) newline indent
    else (newline, indent)
  else (newline, indent)
termination_by source.size - place

/-- The end of the last line that belongs to a block scalar whose next line
starts at a place. -/
def lastLine (cursor : Cursor) (start newline : Nat) : (steps : Nat) → Nat
  | 0 => newline
  | steps + 1 =>
    match cursor.continuation? start with
    | none => newline
    | some resumed =>
      match find? cursor.source '\n' resumed with
      | none => cursor.source.size
      | some next => lastLine cursor (next + 1) next steps

/-- Drop lines of blanks, indented no more than the scalar, from the end of a
block scalar that does not keep them.  Places count one more than the line end
they stand for, so that the line end before the start is zero at the start of
the stream. -/
def dropBlankLines (source : Array Char) (start indent : Nat) (stop : Nat) : Nat :=
  match stop with
  | 0 => 0
  | before + 1 =>
    -- `before` is the line end; the line in front of it ends at `before - 1`
    let carriage := decide (0 < before) && source[before - 1]? == some '\r'
    let line := if carriage then before - 1 else before
    let spaces := ((source.extract 0 line).toList.reverse.takeWhile (· == ' ')).length
    let front := line - spaces
    if 0 < front && source[front - 1]? == some '\n' && decide (start < front) &&
        decide (spaces ≤ indent) then
      if _shorter : front < before + 1 then dropBlankLines source start indent front else stop
    else stop
termination_by stop
decreasing_by omega

/-- Cut the lines of a block scalar after its header line. -/
def cutBlock (cursor : Cursor) (explicit : Option Nat) (keep : Bool) : Cursor :=
  let source := cursor.source
  let start := cursor.position
  let (leading, indent) := leadingLines source start none 0
  -- one more than the last line end that belongs to the scalar
  let first := match leading with
    | none => start
    | some newline => newline + 1
  let deep := decide (cursor.indentNext ≤ indent)
  let indentNext :=
    if deep then
      match explicit with
      | none => indent
      | some extra => extra + (if cursor.indentNext = 0 then 1 else cursor.indentNext)
    else cursor.indentNext
  let cursor := { cursor with indentNext }
  let stop :=
    if deep then
      match cursor.continuation? first with
      | none => first
      | some resumed =>
        match find? source '\n' resumed with
        | none => source.size + 1
        | some newline => cursor.lastLine (newline + 1) newline source.size + 1
    else first
  let place := skipWhile source (· == ' ') stop
  let stop :=
    if source[place]? == some '\t' then
      skipWhile source (fun character => isEmptyAt (some character)) place
    else if keep then stop
    else dropBlankLines source start indent stop
  cursor.cutScalar (min stop source.size)

/-- Cut a block scalar with its header line. -/
def cutBlockScalar (cursor : Cursor) : Cursor :=
  let stop := cursor.lineStop
  let (explicit, keep) := cursor.blockHeader
  let headerStop := skipWhile cursor.source
    (fun character => !isEmptyAt (some character) && character != '#') cursor.position
  let cursor := (cursor.cut headerStop).cutSpaces true
  let cursor := (cursor.cut stop).cutNewline
  cursor.cutBlock explicit keep

end Cursor

end IdlLinker.Yaml
