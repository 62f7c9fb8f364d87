import IdlLinker.Yaml.Cursor.Scalar

/-!
# Cutting a stream into lexemes

Each step of the cursor cuts the lexemes of one construct and says in which
context the next step starts: between documents, at the start of a line, after
its indentation, inside a document or inside a flow collection.
-/

namespace IdlLinker.Yaml

/-- The context in which the next step starts. -/
inductive Context
  | stream
  | lineStart
  | blockStart
  | document
  | flow
  deriving DecidableEq, Repr

namespace Cursor

/-! ## Lines and documents -/

/-- The end of the directive on a line: before a comment, and before the
blanks at its end. -/
def directiveStop (cursor : Cursor) (stop : Nat) : Nat :=
  let line := (cursor.source.extract cursor.position stop).toList
  let rec content : List Char → List Char
    | [] => []
    | blank :: '#' :: rest =>
      if isInlineBlank blank then [] else blank :: content ('#' :: rest)
    | character :: rest => character :: content rest
  let trimmed := (content line).reverse.dropWhile isInlineBlank
  cursor.position + trimmed.length

/-- Between documents: blank lines, comments and directives; anything else
begins a document. -/
def stepStream (cursor : Cursor) : Cursor × Context :=
  let stop := cursor.lineStop
  let cursor := if cursor.peek == some '\ufeff' then cursor.cutCount 1 else cursor
  if cursor.peek == some '%' then
    let cursor := (cursor.cut (cursor.directiveStop stop)).cutSpaces true
    (cursor.cut stop, .stream)
  else if cursor.atLineEnd then
    let cursor := (cursor.cutSpaces true).cut stop
    (cursor.cutNewline, .stream)
  else (cursor.announce .documentBegin, .lineStart)

/-- At the start of a line: a document marker or the indentation. -/
def stepLineStart (cursor : Cursor) : Cursor × Context :=
  if atMarker cursor.source cursor.position then
    let context : Context := if cursor.peek == some '-' then .document else .stream
    ({ cursor.cutCount 3 with indentValue := 0, indentNext := 0 }, context)
  else
    let start := cursor.position
    let cursor := cursor.cutSpaces false
    let indentValue := cursor.position - start
    let lower := decide (indentValue < cursor.indentNext) && !isEmptyAt (cursor.peek 1)
    let indentNext := if lower then indentValue else cursor.indentNext
    ({ cursor with indentValue, indentNext }, .blockStart)

/-- A block indicator with a blank after it. -/
def atBlockIndicator (cursor : Cursor) : Bool :=
  match cursor.peek with
  | some '-' => isEmptyAt (cursor.peek 1)
  | some '?' => isEmptyAt (cursor.peek 1)
  | some ':' => isEmptyAt (cursor.peek 1)
  | _ => false

/-- After the indentation: block indicators, each of which adds to it. -/
def stepBlockStart (cursor : Cursor) : Cursor × Context :=
  if cursor.atBlockIndicator then
    let start := cursor.position
    let cursor := (cursor.cutCount 1).cutSpaces true
    ({ cursor with
       indentNext := cursor.indentValue + 1
       indentValue := cursor.indentValue + (cursor.position - start) }, .blockStart)
  else (cursor, .document)

/-! ## Indicators in front of a node -/

/-- The end of the tag at the cursor. -/
def tagStop (cursor : Cursor) : Nat :=
  let source := cursor.source
  if cursor.peek 1 == some '<' then
    let stop := skipWhile source
      (fun character => !isEmptyAt (some character) && character != '>') (cursor.position + 2)
    if source[stop]? == some '>' then stop + 1 else stop
  else
    let rec shorthand : List Char → Nat
      | '%' :: first :: second :: rest =>
        if isHexDigit first && isHexDigit second then shorthand rest + 3 else 0
      | character :: rest => if isTagCharacter character then shorthand rest + 1 else 0
      | [] => 0
    let rest := (source.extract (cursor.position + 1) cursor.lineStop).toList
    cursor.position + 1 + shorthand rest

/-- Cut tags, anchors and further indicators in front of a node. -/
def cutIndicators : (steps : Nat) → Cursor → Cursor
  | 0, cursor => cursor
  | steps + 1, cursor =>
    match cursor.peek with
    | some '!' => cutIndicators steps ((cursor.cut cursor.tagStop).cutSpaces true)
    | some '&' =>
      let stop := skipWhile cursor.source (fun character => !endsAnchor character) cursor.position
      cutIndicators steps ((cursor.cut stop).cutSpaces true)
    | some character =>
      let inFlow := decide (0 < cursor.flowLevel)
      let next := cursor.peek 1
      let separated := isEmptyAt next || (inFlow && next.any isFlowIndicator)
      if (character == '-' || character == '?' || character == ':') && separated then
        let cursor :=
          if inFlow then { cursor with flowKey := false }
          else { cursor with indentNext := cursor.indentValue + 1 }
        cutIndicators steps ((cursor.cutCount 1).cutSpaces true)
      else cursor
    | none => cursor

/-- Cut all indicators in front of a node. -/
def indicators (cursor : Cursor) : Cursor :=
  cursor.cutIndicators (cursor.source.size - cursor.position)

/-! ## Nodes -/

/-- Cut an alias. -/
def cutAlias (cursor : Cursor) : Cursor :=
  cursor.cut (skipWhile cursor.source (fun character => !endsAnchor character) cursor.position)

/-- Inside a document and outside flow collections. -/
def stepDocument (cursor : Cursor) : Cursor × Context :=
  let cursor := (cursor.cutSpaces true).indicators
  let lineEnd (cursor : Cursor) : Cursor × Context := (cursor.cutNewline, .lineStart)
  if cursor.atBreak then lineEnd cursor
  else
    match cursor.peek with
    | none => lineEnd cursor
    | some '#' => lineEnd (cursor.cut cursor.lineStop)
    | some '\x7b' => ({ cursor.cutCount 1 with flowKey := false, flowLevel := 1 }, .flow)
    | some '[' => ({ cursor.cutCount 1 with flowKey := false, flowLevel := 1 }, .flow)
    | some '\x7d' => (cursor.cutCount 1, .document)
    | some ']' => (cursor.cutCount 1, .document)
    | some '*' => (cursor.cutAlias, .document)
    | some '"' => (cursor.cutQuoted, .document)
    | some '\'' => (cursor.cutQuoted, .document)
    | some '|' => (cursor.cutBlockScalar, .lineStart)
    | some '>' => (cursor.cutBlockScalar, .lineStart)
    | some _ => (cursor.cutPlain, .document)

/-- Cut line ends and blanks in a flow collection; the result tells the
indentation of the last line begun, if one was. -/
def flowBlanks : (steps : Nat) → Cursor → Option Nat → Cursor × Option Nat
  | 0, cursor, indent => (cursor, indent)
  | steps + 1, cursor, indent =>
    let start := cursor.position
    let after := cursor.cutNewline
    let (cursor, indent) :=
      if start < after.position then
        let begun := after.position
        let spaced := after.cutSpaces false
        let width := spaced.position - begun
        ({ spaced with indentValue := width }, some width)
      else (after, indent)
    let cursor := cursor.cutSpaces true
    if start < cursor.position then flowBlanks steps cursor indent else (cursor, indent)

/-- Cut the commas in front of an item of a flow collection. -/
def cutCommas : (steps : Nat) → Cursor → Cursor
  | 0, cursor => cursor
  | steps + 1, cursor =>
    if cursor.peek == some ',' then
      cutCommas steps { (cursor.cutCount 1).cutSpaces true with flowKey := false }
    else cursor

/-- A line inside a flow collection that is not indented enough, or a document
marker.  A bracket that ends the outermost collection may stand where the
collection's parent is indented. -/
def cutsFlow (cursor : Cursor) (indent : Option Nat) : Bool :=
  match indent with
  | none => false
  | some width =>
    let first := cursor.peek
    let shallow := decide (width < cursor.indentNext) && first != some '#'
    let marker := decide (width = 0) && atMarker cursor.source cursor.position
    let closing := decide (width + 1 = cursor.indentNext) && cursor.flowLevel == 1 &&
      (first == some ']' || first == some '\x7d')
    (shallow || marker) && !closing

/-- Inside a flow collection. -/
def stepFlow (cursor : Cursor) : Cursor × Context :=
  let size := cursor.source.size
  let (cursor, indent) := flowBlanks (size + 1 - cursor.position) cursor none
  if cursor.cutsFlow indent then
    ({ cursor with flowLevel := 0 }.announce .flowCut, .lineStart)
  else
    let cursor := (cutCommas (size - cursor.position) cursor).indicators
    let open_ (cursor : Cursor) : Cursor × Context :=
      ({ cursor.cutCount 1 with flowKey := false, flowLevel := cursor.flowLevel + 1 }, .flow)
    let close (cursor : Cursor) : Cursor × Context :=
      let level := cursor.flowLevel - 1
      ({ cursor.cutCount 1 with flowKey := true, flowLevel := level },
        if level = 0 then .document else .flow)
    let plain (cursor : Cursor) : Cursor × Context :=
      ({ cursor with flowKey := false }.cutPlain, .flow)
    if cursor.atBreak then (cursor, .flow)
    else
      match cursor.peek with
      | none => (cursor, .flow)
      | some '#' => (cursor.cut cursor.lineStop, .flow)
      | some '\x7b' => open_ cursor
      | some '[' => open_ cursor
      | some '\x7d' => close cursor
      | some ']' => close cursor
      | some '*' => (cursor.cutAlias, .flow)
      | some '"' => ({ cursor with flowKey := true }.cutQuoted, .flow)
      | some '\'' => ({ cursor with flowKey := true }.cutQuoted, .flow)
      | some ':' =>
        let next := cursor.peek 1
        if cursor.flowKey || isEmptyAt next || next == some ',' then
          (({ cursor with flowKey := false }.cutCount 1).cutSpaces true, .flow)
        else plain cursor
      | some _ => plain cursor

/-- One step in a context. -/
def step (cursor : Cursor) : Context → Cursor × Context
  | .stream => cursor.stepStream
  | .lineStart => cursor.stepLineStart
  | .blockStart => cursor.stepBlockStart
  | .document => cursor.stepDocument
  | .flow => cursor.stepFlow

/-- Steps up to the end of the stream. -/
def run : (steps : Nat) → Cursor → Context → Cursor
  | 0, cursor, _ => cursor
  | steps + 1, cursor, context =>
    if cursor.position < cursor.source.size then
      let (cursor, context) := cursor.step context
      run steps cursor context
    else cursor

end Cursor

/-- The lexemes of a stream.  No more than a few steps in a row cut nothing. -/
def lexemes (stream : String) : List Lexeme :=
  let source := stream.toList.toArray
  let cursor : Cursor := { source }
  (cursor.run (8 * (source.size + 1)) .stream).lexemes.toList

end IdlLinker.Yaml
