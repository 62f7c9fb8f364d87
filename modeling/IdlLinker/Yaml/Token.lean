import IdlLinker.Text.Units

/-!
# Tokens of a YAML stream

A stream is cut into lexemes: pieces of text with a kind.  A token is a lexeme
with its offset in sixteen-bit units and the indentation of its line.
Two kinds take no room in the stream: one announces a document, and one says
that a flow collection was cut off by a line that is not indented enough.  A
control character is their text.
-/

namespace IdlLinker.Yaml

/-- What a piece of a stream is. -/
inductive TokenKind
  | byteOrderMark
  | documentBegin
  | flowCut
  | scalar
  | documentStart
  | documentEnd
  | newline
  | sequenceItem
  | explicitKey
  | mappingValue
  | flowMapStart
  | flowMapEnd
  | flowSequenceStart
  | flowSequenceEnd
  | comma
  | space
  | comment
  | directive
  | aliased
  | anchor
  | tag
  | singleQuoted
  | doubleQuoted
  | blockHeader
  | unknown
  deriving DecidableEq, Repr, Inhabited

namespace TokenKind

/-- The word for a kind in messages. -/
def word : TokenKind → String
  | byteOrderMark => "byte-order-mark"
  | documentBegin => "doc-mode"
  | flowCut => "flow-error-end"
  | scalar => "scalar"
  | documentStart => "doc-start"
  | documentEnd => "doc-end"
  | newline => "newline"
  | sequenceItem => "seq-item-ind"
  | explicitKey => "explicit-key-ind"
  | mappingValue => "map-value-ind"
  | flowMapStart => "flow-map-start"
  | flowMapEnd => "flow-map-end"
  | flowSequenceStart => "flow-seq-start"
  | flowSequenceEnd => "flow-seq-end"
  | comma => "comma"
  | space => "space"
  | comment => "comment"
  | directive => "directive-line"
  | aliased => "alias"
  | anchor => "anchor"
  | tag => "tag"
  | singleQuoted => "single-quoted-scalar"
  | doubleQuoted => "double-quoted-scalar"
  | blockHeader => "block-scalar-header"
  | unknown => "error"

/-- The text of a kind that takes no room in the stream. -/
def mark : TokenKind → String
  | documentBegin => "\x02"
  | flowCut => "\x18"
  | _ => ""

/-- The kind of a lexeme that is not the content of a scalar, read off its
text. -/
def ofText (text : String) : TokenKind :=
  match text with
  | "\ufeff" => byteOrderMark
  | "---" => documentStart
  | "..." => documentEnd
  | "\n" => newline
  | "\r\n" => newline
  | "-" => sequenceItem
  | "?" => explicitKey
  | ":" => mappingValue
  | "\x7b" => flowMapStart
  | "\x7d" => flowMapEnd
  | "[" => flowSequenceStart
  | "]" => flowSequenceEnd
  | "," => comma
  | _ =>
    match text.toList with
    | ' ' :: _ => space
    | '\t' :: _ => space
    | '#' :: _ => comment
    | '%' :: _ => directive
    | '*' :: _ => aliased
    | '&' :: _ => anchor
    | '!' :: _ => tag
    | '\'' :: _ => singleQuoted
    | '"' :: _ => doubleQuoted
    | '|' :: _ => blockHeader
    | '>' :: _ => blockHeader
    | _ => unknown

/-- Spaces, comments and line ends. -/
def isTrivia : TokenKind → Bool
  | space => true
  | comment => true
  | newline => true
  | _ => false

/-- The kinds whose text is a scalar on its own, and aliases. -/
def isFlowScalar : TokenKind → Bool
  | aliased => true
  | scalar => true
  | singleQuoted => true
  | doubleQuoted => true
  | _ => false

end TokenKind

/-- A piece of a stream. -/
structure Lexeme where
  kind : TokenKind
  text : String
  deriving DecidableEq, Repr

/-- A piece of a stream in its place. -/
structure Token where
  kind : TokenKind
  offset : Nat
  indent : Nat
  text : String
  deriving DecidableEq, Repr, Inhabited

/-- The offset just after a token. -/
def Token.stop (token : Token) : Nat := token.offset + Text.units token.text

/-- The width of tokens that follow one another. -/
def Token.width (tokens : List Token) : Nat :=
  tokens.foldr (fun token total => Text.units token.text + total) 0

/-- A kind occurs among tokens. -/
def includes (tokens : List Token) (kind : TokenKind) : Bool :=
  tokens.any fun token => token.kind == kind

end IdlLinker.Yaml
