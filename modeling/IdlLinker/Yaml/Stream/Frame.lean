import IdlLinker.Yaml.Stream

/-!
# Frames

A frame is a part of a stream that is not complete yet.  The frames that are
open at a token form a stack; a complete node moves from its frame into the
frame around it.
-/

namespace IdlLinker.Yaml

/-- A document, a document end or a node that is not complete.  The last entry
of a block collection stands apart, and the earlier ones stand in reverse
order, as do all the entries of a flow collection. -/
inductive Frame
  | document (document : DocumentLayout)
  | documentEnd (token : Token) (ending : List Token)
  | scalar (form : ScalarForm) (offset indent : Nat) (text : String)
      (ending : Option (List Token))
  | blockScalar (offset indent : Nat) (header : List Token) (text : String)
  | blockMap (offset indent : Nat) (last : Entry Layout) (earlier : List (Entry Layout))
  | blockSequence (offset indent : Nat) (last : Entry Layout) (earlier : List (Entry Layout))
  | flow (offset indent : Nat) (opening : Token) (entries : List (Entry Layout))
      (closing : List Token)

/-- An item of a flow sequence that was read as the key of a pair and turned
out to be no pair is a value. -/
def Entry.settleFlowItem (entry : Entry Layout) : Entry Layout :=
  match entry.separator, entry.value with
  | some separator, none =>
    if includes entry.start .explicitKey || includes separator .mappingValue then entry
    else
      match entry.key with
      | some key =>
        if key.isFlow then
          { start := entry.start, value := some (key.addEnding separator) }
        else { start := entry.start ++ separator, value := some key }
      | none => { start := entry.start ++ separator }
  | _, _ => entry

/-- The entries of a flow collection, settled if it is a sequence. -/
def settleFlow (opening : Token) (entries : List (Entry Layout)) : List (Entry Layout) :=
  if opening.kind == .flowSequenceStart then entries.map Entry.settleFlowItem else entries

/-- Part a list of tokens at the start of an implicit key: after the last line
end or indicator and the spaces behind it. -/
def splitKeyStart (tokens : List Token) : List Token × List Token :=
  let ends : TokenKind → Bool
    | .documentStart => true
    | .explicitKey => true
    | .mappingValue => true
    | .sequenceItem => true
    | .newline => true
    | _ => false
  let tail := (tokens.reverse.takeWhile fun token => !ends token.kind).reverse
  let front := tokens.take (tokens.length - tail.length)
  let isSpace (token : Token) : Bool := token.kind == .space
  (front ++ tail.takeWhile isSpace, tail.dropWhile isSpace)

/-- Part the tokens between a key and its missing value where the next entry
starts: at the second line end that is not followed by a deeper comment. -/
def splitBlankLines (indent : Nat) (tokens : List Token) : List Token × List Token :=
  let rec newlines (position : Nat) (found : List Nat) : List Token → List Nat
    | [] => found
    | token :: rest =>
      let found :=
        match token.kind with
        | .newline => found ++ [position]
        | .space => found
        | .comment => if indent < token.indent then [] else found
        | _ => []
      newlines (position + 1) found rest
  match newlines 0 [] tokens with
  | _ :: second :: _ => (tokens.take second, tokens.drop second)
  | _ => (tokens, [])

/-- The blank lines and comments at the end of a block collection that belong
to what is around it, and the collection without them. -/
def Layout.splitTrailing (layout : Layout) : List Token × Layout :=
  let outer (indent : Nat) (last : Entry Layout) : Bool :=
    last.separator.isNone && last.value.isNone && !last.start.isEmpty &&
      (last.start.all fun token => token.kind.isTrivia) &&
      (indent == 0 || last.start.all fun token =>
        token.kind != .comment || decide (token.indent < indent))
  match layout with
  | .blockMap offset indent entries =>
    match entries.getLast? with
    | some last =>
      if outer indent last then (last.start, .blockMap offset indent entries.dropLast)
      else ([], layout)
    | none => ([], layout)
  | .blockSequence offset indent entries =>
    match entries.getLast? with
    | some last =>
      if outer indent last then (last.start, .blockSequence offset indent entries.dropLast)
      else ([], layout)
    | none => ([], layout)
  | other => ([], other)

namespace Frame

/-- The node of a frame, or the part of the stream it is. -/
def finish : Frame → Part ⊕ Layout
  | document body => .inl (.document body)
  | documentEnd token ending => .inl (.documentEnd token ending)
  | scalar form offset indent text ending => .inr (.scalar form offset indent text ending)
  | blockScalar offset indent header text => .inr (.blockScalar offset indent header text)
  | blockMap offset indent last earlier =>
    .inr (.blockMap offset indent (last :: earlier).reverse)
  | blockSequence offset indent last earlier =>
    .inr (.blockSequence offset indent (last :: earlier).reverse)
  | flow offset indent opening entries closing =>
    .inr (.flow offset indent opening (settleFlow opening entries.reverse) closing)

/-- The indentation of a frame; documents have none. -/
def indent : Frame → Nat
  | document _ => 0
  | documentEnd .. => 0
  | scalar _ _ indent .. => indent
  | blockScalar _ indent .. => indent
  | blockMap _ indent .. => indent
  | blockSequence _ indent .. => indent
  | flow _ indent .. => indent

/-- A flow collection. -/
def isFlowCollection : Frame → Bool
  | flow .. => true
  | _ => false

/-- A node in the frame around it: block scalars take that frame's
indentation, and a flow collection that is a whole document has none. -/
def adapt (frame : Frame) (layout : Layout) : Layout :=
  match frame, layout with
  | frame, .blockScalar offset _ header text => .blockScalar offset frame.indent header text
  | document _, .flow offset _ opening entries closing =>
    .flow offset 0 opening entries closing
  | _, layout => layout

/-- Put a complete node into the frame around it.  A node that becomes a key
says whether its line is a key line from then on. -/
def accept (frame : Frame) (node : Layout) : Frame × Option Bool :=
  let node := frame.adapt node
  let keyed (start : List Token) (explicitKey : Bool) : Entry Layout :=
    { start, explicitKey, key := some node, separator := some [] }
  let remainder (tokens : List Token) (last : Entry Layout) (earlier : List (Entry Layout)) :
      Entry Layout × List (Entry Layout) :=
    if tokens.isEmpty then (last, earlier) else ({ start := tokens }, last :: earlier)
  let (trailing, value) := node.splitTrailing
  match frame with
  | document body =>
    let ending := if trailing.isEmpty then body.ending else trailing
    (document { body with content := some value, ending }, none)
  | blockScalar offset indent header text =>
    match node with
    | .misplaced token _ => (blockScalar offset indent (header ++ [token]) text, none)
    | _ => (frame, none)
  | blockMap offset indent last earlier =>
    match last.value, last.separator with
    | some _, _ => (blockMap offset indent (keyed [] false) (last :: earlier), some true)
    | none, some _ =>
      let (last, earlier) := remainder trailing { last with value := some value } earlier
      (blockMap offset indent last earlier, none)
    | none, none =>
      (blockMap offset indent (keyed last.start last.explicitKey) earlier,
        some !last.explicitKey)
  | blockSequence offset indent last earlier =>
    let (last, earlier) :=
      match last.value with
      | some _ => remainder trailing { value := some value } (last :: earlier)
      | none => remainder trailing { last with value := some value } earlier
    (blockSequence offset indent last earlier, none)
  | flow offset indent opening entries closing =>
    let entries :=
      match entries with
      | [] => [keyed [] false]
      | last :: earlier =>
        match last.value, last.separator with
        | some _, _ => keyed [] false :: last :: earlier
        | none, some _ => { last with value := some node } :: earlier
        | none, none => keyed last.start last.explicitKey :: earlier
    (flow offset indent opening entries closing, none)
  | other => (other, none)

/-- Take the tokens that belong to an implicit key out of the frame in which
the key starts. -/
def takeKeyStart : Frame → List Token × Frame
  | document body =>
    let (kept, taken) := splitKeyStart body.start
    (taken, document { body with start := kept })
  | blockMap offset indent last earlier =>
    match last.separator with
    | some separator =>
      let (kept, taken) := splitKeyStart separator
      (taken, blockMap offset indent { last with separator := some kept } earlier)
    | none =>
      let (kept, taken) := splitKeyStart last.start
      (taken, blockMap offset indent { last with start := kept } earlier)
  | blockSequence offset indent last earlier =>
    let (kept, taken) := splitKeyStart last.start
    (taken, blockSequence offset indent { last with start := kept } earlier)
  | other => ([], other)

/-- Add a token after the content of a frame. -/
def addEnding (token : Token) : Frame → Frame
  | document body => document { body with ending := body.ending ++ [token] }
  | documentEnd marker ending => documentEnd marker (ending ++ [token])
  | scalar form offset indent text ending =>
    scalar form offset indent text (some (ending.getD [] ++ [token]))
  | flow offset indent opening entries closing =>
    flow offset indent opening entries (closing ++ [token])
  | other => other

/-- The frame that a token opens when it starts a node of its own. -/
def ofToken? (token : Token) : Option Frame :=
  match token.kind with
  | .blockHeader => some (blockScalar token.offset token.indent [token] "")
  | .flowMapStart => some (flow token.offset token.indent token [] [])
  | .flowSequenceStart => some (flow token.offset token.indent token [] [])
  | .sequenceItem => some (blockSequence token.offset token.indent { start := [token] } [])
  | kind =>
    (ScalarForm.ofKind? kind).map fun form =>
      scalar form token.offset token.indent token.text none

end Frame

end IdlLinker.Yaml
