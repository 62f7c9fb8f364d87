import IdlLinker.Text.Quoted
import IdlLinker.Yaml.Token

/-!
# Faults of a YAML stream

What can be wrong with a stream, with the text that says so.  A report is a
fault at an offset.
-/

namespace IdlLinker.Yaml

/-- The collections that faults name. -/
inductive CollectionKind
  | block
  | flowMap
  | flowSequence
  deriving DecidableEq, Repr

namespace CollectionKind

/-- The words for a collection inside a sentence. -/
def words : CollectionKind → String
  | block => "collection"
  | flowMap => "flow map"
  | flowSequence => "flow sequence"

/-- The words for a collection at the start of a sentence. -/
def title : CollectionKind → String
  | block => "Collection"
  | flowMap => "Flow map"
  | flowSequence => "Flow sequence"

/-- The bracket that ends a flow collection. -/
def closing : CollectionKind → String
  | flowMap => "\x7d"
  | _ => "]"

end CollectionKind

/-- What is wrong with a stream. -/
inductive Fault
  -- tokens in the wrong place
  | notAToken (text : String)
  | strayInStream (kind : TokenKind)
  | strayInDocument (kind : TokenKind)
  | citing (fault : Fault) (text : String)
  | unexpectedToken (kind : TokenKind)
  | unexpectedAtNodeEnd (kind : TokenKind)
  | unexpectedIn (text : String) (collection : CollectionKind)
  | sequenceOnKeyLine
  -- what stands in front of a node
  | unseparatedProperty
  | unseparatedComment
  | tabIndentation
  | severalAnchors
  | severalTags
  | propertyBeforeIndicator (indicator : String)
  | emptyAnchor
  | emptyAlias
  | aliasWithProperties
  | propertiesOnSequenceLine
  -- tags
  | invalidTag (text : String)
  | reservedVerbatim (text : String)
  | openVerbatim
  | tagWithoutSuffix (text : String)
  | unknownTagHandle (text : String)
  | malformedTagEscape
  | unreadType (name : String)
  -- block collections
  | duplicateKey
  | keyWithoutValue
  | keyOverSeveralLines
  | longKey
  | sequenceAsKey
  | nestedInKeyLine
  | unevenMapping
  | unevenSequence
  | missingItemIndicator
  | commentBeforeContent
  -- flow collections
  | emptyItem (collection : CollectionKind)
  | missingComma (collection : CollectionKind)
  | missingCommaOrColon (collection : CollectionKind)
  | missingSpaceAfterColon (collection : CollectionKind)
  | pairKeyOverSeveralLines
  | longPairKey
  | blockInFlow
  | unclosedFlow (collection : CollectionKind)
  -- scalars
  | reservedStart (character : String)
  | unclosedQuote (quote : String)
  | invalidEscape (text : String)
  | extraInBlockHeader (header : String)
  | deepLeadingLines
  | unindentedBlockScalar
  | shallowBlockLine (explicit : Bool)
  -- documents
  | collectionOnStartLine
  | missingDocumentStart
  | missingDirectivesEnd
  | tagDirectiveParts
  | versionDirectiveParts
  | unsupportedVersion (version : String)
  | severalDocuments
  deriving DecidableEq, Repr

namespace Fault

/-- The text that says what is wrong. -/
def message : Fault → String
  | notAToken text => "Not a YAML token: " ++ text
  | strayInStream kind => "Unexpected " ++ kind.word ++ " token in YAML stream"
  | strayInDocument kind => "Unexpected " ++ kind.word ++ " token in YAML document"
  | citing fault text =>
    if text.isEmpty then fault.message else fault.message ++ ": " ++ Text.quoted text
  | unexpectedToken kind => "Unexpected " ++ kind.word ++ " token"
  | unexpectedAtNodeEnd kind => "Unexpected " ++ kind.word ++ " at node end"
  | unexpectedIn text collection => "Unexpected " ++ text ++ " in " ++ collection.words
  | sequenceOnKeyLine => "Unexpected block-seq-ind on same line with key"
  | unseparatedProperty =>
    "Tags and anchors must be separated from the next token by white space"
  | unseparatedComment =>
    "Comments must be separated from other tokens by white space characters"
  | tabIndentation => "Tabs are not allowed as indentation"
  | severalAnchors => "A node can have at most one anchor"
  | severalTags => "A node can have at most one tag"
  | propertyBeforeIndicator indicator =>
    "Anchors and tags must be after the " ++ indicator ++ " indicator"
  | emptyAnchor => "Anchor cannot be an empty string"
  | emptyAlias => "Alias cannot be an empty string"
  | aliasWithProperties => "An alias node must not specify any properties"
  | propertiesOnSequenceLine => "Missing newline after block sequence props"
  | invalidTag text => "Not a valid tag: " ++ text
  | reservedVerbatim text => "Verbatim tags aren't resolved, so " ++ text ++ " is invalid."
  | openVerbatim => "Verbatim tags must end with a >"
  | tagWithoutSuffix text => "The " ++ text ++ " tag has no suffix"
  | unknownTagHandle text => "Could not resolve tag: " ++ text
  | malformedTagEscape => "URIError: URI malformed"
  | unreadType name => "Type is not read: " ++ name
  | duplicateKey => "Map keys must be unique"
  | keyWithoutValue => "Implicit map keys need to be followed by map values"
  | keyOverSeveralLines => "Implicit keys need to be on a single line"
  | longKey =>
    "The : indicator must be at most 1024 chars after the start of an implicit block mapping key"
  | sequenceAsKey => "A block sequence may not be used as an implicit map key"
  | nestedInKeyLine => "Nested mappings are not allowed in compact mappings"
  | unevenMapping => "All mapping items must start at the same column"
  | unevenSequence => "All sequence items must start at the same column"
  | missingItemIndicator => "Sequence item without - indicator"
  | commentBeforeContent => "Map comment with trailing content"
  | emptyItem collection => "Unexpected empty item in " ++ collection.words
  | missingComma collection => "Missing , between " ++ collection.words ++ " items"
  | missingCommaOrColon collection =>
    "Missing , or : between " ++ collection.words ++ " items"
  | missingSpaceAfterColon collection => "Missing space after : in " ++ collection.words
  | pairKeyOverSeveralLines =>
    "Implicit keys of flow sequence pairs need to be on a single line"
  | longPairKey =>
    "The : indicator must be at most 1024 chars after the start of an implicit flow sequence key"
  | blockInFlow => "Block collections are not allowed within flow collections"
  | unclosedFlow collection =>
    collection.title ++ " in block collection must be sufficiently indented and end with a "
      ++ collection.closing
  | reservedStart character => "Plain value cannot start with " ++ character
  | unclosedQuote quote => "Missing closing " ++ quote ++ "quote"
  | invalidEscape text => "Invalid escape sequence " ++ text
  | extraInBlockHeader header => "Block scalar header includes extra characters: " ++ header
  | deepLeadingLines =>
    "Block scalars with more-indented leading empty lines must use an explicit " ++
      "indentation indicator"
  | unindentedBlockScalar => "Block scalar values in collections must be indented"
  | shallowBlockLine explicit =>
    "Block scalar lines must not be less indented than their " ++
      (if explicit then "explicit indentation indicator" else "first line")
  | collectionOnStartLine =>
    "Block collection cannot start on same line with directives-end marker"
  | missingDocumentStart => "Missing directives-end/doc-start indicator line"
  | missingDirectivesEnd => "Missing directives-end indicator line"
  | tagDirectiveParts => "%TAG directive should contain exactly two parts"
  | versionDirectiveParts => "%YAML directive should contain exactly one part"
  | unsupportedVersion version => "Unsupported YAML version " ++ version
  | severalDocuments =>
    "Source contains multiple documents; please use YAML.parseAllDocuments()"

end Fault

/-- A fault at an offset. -/
structure Report where
  offset : Nat
  fault : Fault
  deriving DecidableEq, Repr

end IdlLinker.Yaml
