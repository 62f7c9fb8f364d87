import IdlLinker.Yaml.Lexeme
import IdlLinker.Yaml.Stream.BlockPlaces
import IdlLinker.Yaml.Stream.FlowPlaces

/-!
# The stream of a text

The lexemes of a text are taken one after the other.  The innermost open frame
either finds a place for the token at hand, or it is closed and the frame
around it is asked.
-/

namespace IdlLinker.Yaml

namespace Assembly

/-- A token outside of any document. -/
def atStream (assembly : Assembly) (token : Token) : Assembly :=
  match token.kind with
  | .directive => assembly.emit (.directive token)
  | .byteOrderMark => assembly
  | .space => assembly
  | .comment => assembly
  | .newline => assembly
  | .documentBegin => assembly.push (.document { offset := token.offset })
  | .documentStart => assembly.push (.document { offset := token.offset, start := [token] })
  | kind => assembly.emit (.stray token (.strayInStream kind))

/-- A token of a document outside of its content. -/
def atDocument? (assembly : Assembly) (body : DocumentLayout) (token : Token) :
    Option Assembly :=
  let added := assembly.become (.document { body with start := body.start ++ [token] })
  let content : Option Assembly :=
    some ((assembly.begin? token).getD
      (assembly.emit (.stray token (.strayInDocument token.kind))))
  if body.content.isSome then assembly.atEnding? (.document body) token
  else
    match token.kind with
    | .documentStart => if body.start.all (·.kind.isTrivia) then some added else none
    | .anchor => some added
    | .tag => some added
    | .space => some added
    | .comment => some added
    | .newline => some added
    | _ => content

/-- A token behind a scalar: a colon makes the scalar the key of a mapping. -/
def atScalar? (assembly : Assembly) (token : Token) (form : ScalarForm) (offset indent : Nat)
    (text : String) (ending : Option (List Token)) : Option Assembly :=
  if token.kind == .mappingValue then
    let (taken, outer) := { assembly with stack := assembly.stack.tail }.takeKeyStart
    let first : Entry Layout :=
      { start := taken
        key := some (.scalar form offset indent text none)
        separator := some (ending.getD [] ++ [token]) }
    some ({ outer with onKeyLine := true }.push (.blockMap offset indent first []))
  else assembly.atEnding? (.scalar form offset indent text ending) token

/-- A token of a block scalar: its header line, and then its content. -/
def atBlockScalar? (assembly : Assembly) (token : Token) (offset indent : Nat)
    (header : List Token) (text : String) : Option Assembly :=
  let added := some (assembly.become (.blockScalar offset indent (header ++ [token]) text))
  match token.kind with
  | .space => added
  | .comment => added
  | .newline => added
  | .scalar =>
    let assembly := assembly.become (.blockScalar offset indent header token.text)
    some ({ assembly with atLineStart := true, indent := 0 }.noteLines token).pop
  | _ => none

/-- A token behind the marker that ends a document. -/
def atDocumentEnd (assembly : Assembly) (marker : Token) (ending : List Token)
    (token : Token) : Assembly :=
  if token.kind == .documentBegin then assembly
  else
    let added := assembly.become (.documentEnd marker (ending ++ [token]))
    if token.kind == .newline then added.pop else added

/-- Place a token into the innermost frame, unless it has no place there. -/
def place? (assembly : Assembly) (token : Token) : Option Assembly :=
  match assembly.stack with
  | [] => some (assembly.atStream token)
  | .document body :: _ => assembly.atDocument? body token
  | .documentEnd marker ending :: _ => some (assembly.atDocumentEnd marker ending token)
  | .scalar form offset indent text ending :: _ =>
    assembly.atScalar? token form offset indent text ending
  | .blockScalar offset indent header text :: _ =>
    assembly.atBlockScalar? token offset indent header text
  | .blockMap offset indent last earlier :: _ =>
    assembly.atBlockMap? token offset indent last earlier
  | .blockSequence offset indent last earlier :: _ =>
    assembly.atBlockSequence? token offset indent last earlier
  | .flow offset indent opening entries closing :: _ =>
    if token.kind == .flowCut then
      some (popWhile Frame.isFlowCollection assembly.stack.length assembly)
    else if closing.isEmpty then assembly.inFlow? token offset indent opening entries
    else assembly.afterFlow? token offset indent opening entries closing

/-- Place a token into the innermost frame that has a place for it, closing
the frames inside that one. -/
def place : (depth : Nat) → Token → Assembly → Assembly
  | 0, _, assembly => assembly
  | depth + 1, token, assembly =>
    match assembly.place? token with
    | some assembly => assembly
    | none => place depth token assembly.pop

/-- Take a token.  The marker that ends a document closes everything. -/
def take (assembly : Assembly) (token : Token) : Assembly :=
  let inEnd := match assembly.stack with
    | .documentEnd .. :: _ => true
    | _ => false
  if token.kind == .documentEnd && !inEnd then
    assembly.popAll.push (.documentEnd token [])
  else place (assembly.stack.length + 1) token assembly

/-- Take a lexeme, and count the offset and the indentation. -/
def step (assembly : Assembly) (lexeme : Lexeme) : Assembly :=
  let token : Token :=
    { kind := lexeme.kind, offset := assembly.offset, indent := assembly.indent
      text := lexeme.text }
  let width := Text.units lexeme.text
  let advance (assembly : Assembly) : Assembly :=
    { assembly with offset := assembly.offset + width }
  let indented (assembly : Assembly) : Assembly :=
    if assembly.atLineStart then { assembly with indent := assembly.indent + width }
    else assembly
  match lexeme.kind with
  | .scalar => advance ({ assembly with atLineStart := false }.take token)
  | .unknown => advance (assembly.misplace token (.notAToken lexeme.text))
  | .newline =>
    let next := assembly.take token
    advance { next with
      atLineStart := true
      indent := 0
      lineStarts := (assembly.offset + width) :: next.lineStarts }
  | .space =>
    let next := assembly.take token
    advance (if lexeme.text.startsWith " " then indented next else next)
  | .explicitKey => advance (indented (assembly.take token))
  | .mappingValue => advance (indented (assembly.take token))
  | .sequenceItem => advance (indented (assembly.take token))
  | .documentBegin => assembly.take token
  | .flowCut => assembly.take token
  | _ => advance { assembly.take token with atLineStart := false }

/-- The stream that has been assembled. -/
def finish (assembly : Assembly) : Stream :=
  let assembly := assembly.popAll
  { parts := assembly.parts.reverse, lineStarts := assembly.lineStarts.reverse }

end Assembly

/-- The stream of a text. -/
def Stream.ofText (text : String) : Stream :=
  ((lexemes text).foldl Assembly.step {}).finish

end IdlLinker.Yaml
