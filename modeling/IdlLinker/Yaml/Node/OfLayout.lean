import IdlLinker.Yaml.Properties
import IdlLinker.Yaml.Scalar
import IdlLinker.Yaml.Scalar.Block
import IdlLinker.Yaml.Scalar.Flow
import IdlLinker.Yaml.Tag

/-!
# Nodes of layout trees

A layout tree is turned into a node, and everything in it that is out of place
is reported in the order of the stream.  A node is made in any case: where one
is missing or is no node, there is an empty scalar.

Types beyond those of the core schema are not read.  Where a tag asks for one of
them that is made for a node of its kind, this is reported as a fault.
-/

namespace IdlLinker.Yaml

open Text (units)

/-- A node with the offset behind everything that belongs to it. -/
structure Placed where
  node : Node
  stop : Nat

namespace Placed

/-- The offset at which a node starts. -/
def offset (placed : Placed) : Nat := placed.node.start.getD 0

/-- The types that are not read, for scalars. -/
def unreadScalars : List String :=
  ["tag:yaml.org,2002:binary", "tag:yaml.org,2002:timestamp", "tag:yaml.org,2002:merge"]

/-- The types that are not read, for mappings. -/
def unreadMappings : List String := ["tag:yaml.org,2002:set"]

/-- The types that are not read, for sequences. -/
def unreadSequences : List String := ["tag:yaml.org,2002:omap", "tag:yaml.org,2002:pairs"]

/-- The name of the tag in front of a node, if it has one. -/
def tagOf (handles : TagHandles) (unread : List String) (properties : Properties) :
    Reported (Option String) :=
  match properties.tag with
  | some tag => do
    let name ← tagName handles tag.offset tag.text
    reportIf (name.any unread.contains) tag.offset (.unreadType (name.getD ""))
    return name
  | none => pure none

/-- An anchor must have a name. -/
def checkAnchor (properties : Properties) : Reported Unit :=
  match properties.anchor with
  | some anchor => reportIf (anchor.text == "&") anchor.offset .emptyAnchor
  | none => pure ()

/-- The content of a scalar: what its tag asks for, or else what its form
says. -/
def scalarOf (handles : TagHandles) (properties : Properties) (isPlain : Bool)
    (text : String) : Reported Scalar := do
  match ← tagOf handles unreadScalars properties with
  | some name => return .ofTagged name text
  | none => return if isPlain then .ofPlain text else .text text

/-- The node where there is no text. -/
def empty (handles : TagHandles) (properties : Properties) (offset : Nat) :
    Reported Placed := do
  let content ← scalarOf handles properties true ""
  checkAnchor properties
  return ⟨.scalar content (some offset), if properties.commented then properties.stop else offset⟩

/-- An alias. -/
def ofAlias (properties : Properties) (offset : Nat) (text : String) (ending : List Token) :
    Reported Placed := do
  let name := String.ofList (text.toList.drop 1)
  reportIf name.isEmpty offset .emptyAlias
  let stop ← readEnding ending (offset + units text) true
  reportIf properties.named offset .aliasWithProperties
  return ⟨.aliased name (some offset), stop⟩

/-- A plain or quoted scalar. -/
def ofFlowScalar (handles : TagHandles) (properties : Properties) (form : ScalarForm)
    (offset : Nat) (source : String) (ending : List Token) : Reported Placed := do
  let text ←
    match form with
    | .singleQuoted => singleQuotedText offset source
    | .doubleQuoted => doubleQuotedText offset source
    | _ => plainText offset source
  let stop ← readEnding ending (offset + units source) true
  let content ← scalarOf handles properties (form == .plain) text
  checkAnchor properties
  return ⟨.scalar content (some offset), stop⟩

/-- A block scalar. -/
def ofBlockScalar (handles : TagHandles) (isRoot : Bool) (properties : Properties)
    (offset indent : Nat) (header : List Token) (source : String) : Reported Placed := do
  let (text, width) ← blockText isRoot offset indent header source
  let content ← scalarOf handles properties false text
  checkAnchor properties
  return ⟨.scalar content (some offset), offset + width⟩

/-- The anchor and the tag of a block sequence stand on a line before it. -/
def checkSequenceLine (properties : Properties) : Reported Unit :=
  let last : Option Token :=
    match properties.anchor, properties.tag with
    | some anchor, some tag => if tag.offset < anchor.offset then some anchor else some tag
    | anchor, tag => anchor.or tag
  match last with
  | some last =>
    reportIf (properties.newlineAfter.all fun newline => newline.offset < last.offset)
      last.offset .propertiesOnSequenceLine
  | none => pure ()

/-- An implicit key starts at the column of its mapping, on a single line. -/
def checkKeyIndent (indent offset : Nat) (key : Option Layout) : Reported Unit :=
  match key with
  | some (.blockSequence ..) => report offset .sequenceAsKey
  | some key =>
    reportIf (key.indent?.any fun keyIndent => keyIndent != indent) offset .unevenMapping
  | none => pure ()

/-- A key is that of an earlier pair. -/
def hasKey (earlier : List (Node × Option Node)) (key : Node) : Bool :=
  earlier.any fun pair => pair.1.sameKey key

/-- An item of a flow collection. -/
inductive FlowItem
  | single (node : Node)
  | pair (key : Node) (value : Option Node)

/-- The pairs among the items of a flow collection. -/
def FlowItem.pair? : FlowItem → Option (Node × Option Node)
  | single _ => none
  | pair key value => some (key, value)

/-- An item of a flow sequence; a pair is a mapping of its own. -/
def FlowItem.node : FlowItem → Node
  | single node => node
  | pair key value => .mapping [(key, value)] key.start

/-- The first bracket of a flow collection says what it is. -/
def kindOfFlow (opening : Token) : CollectionKind :=
  if opening.kind == .flowMapStart then .flowMap else .flowSequence

/-- Read the tokens from the closing bracket of a flow collection on. -/
def readClosing (kind : CollectionKind) (offset : Nat) (closing : List Token) :
    Reported Nat := do
  match closing with
  | bracket :: rest =>
    if bracket.text == kind.closing then readEnding rest bracket.stop true
    else
      report offset (.unclosedFlow kind)
      readEnding (if units bracket.text = 1 then rest else closing) offset true
  | [] =>
    report offset (.unclosedFlow kind)
    return offset

/-- The key of a pair in a flow sequence and its colon are on one line, close
together. -/
def checkPairKey (start : Nat) (separator : List Token) (colon : Token) : Reported Unit := do
  match (separator.takeWhile (· != colon)).find? (·.kind == .newline) with
  | some newline => report newline.offset .pairKeyOverSeveralLines
  | none => pure ()
  reportIf (decide (start + 1024 < colon.offset)) colon.offset .longPairKey

/-- The place of the tokens between a key and its value. -/
def valuePlace (kind : CollectionKind) (indent offset : Nat) (startsLine : Bool)
    (value : Option Layout) : Place where
  collection := kind
  indicator := .mappingValue
  following := .ofNode value
  offset
  parentIndent := indent
  startsLine

/-- The place of the tokens in front of a key or of an item of a flow
collection. -/
def keyPlace (kind : CollectionKind) (indent offset : Nat) (startsLine : Bool)
    (key : Option Layout) (separator : Option (List Token)) : Place where
  collection := kind
  indicator := .explicitKey
  following := .ofNode key (separator.bind List.head?)
  offset
  parentIndent := indent
  startsLine

/-- What follows a key of a block mapping starts a line: there is no key, or it
is a block scalar. -/
def endsLine : Option Layout → Bool
  | none => true
  | some (.blockScalar ..) => true
  | _ => false

/-- An explicit key stands at the indent of its mapping, and so does an implicit
one. -/
def checkKeyPlace (indent offset : Nat) (before : Properties) (key : Option Layout) :
    Reported Unit :=
  match before.indicator with
  | some indicator => reportIf (indicator.indent != indent) offset .unevenMapping
  | none => checkKeyIndent indent offset key

/-- An implicit key and its value: a mapping does not begin on the line of the
key, and the colon is not far behind the key. -/
def checkColon (isImplicit : Bool) (before between : Properties) (colon : Token)
    (keyOffset : Nat) (value : Option Layout) : Reported Unit := do
  let nested := match value with
    | some (.blockMap ..) => !between.newline
    | _ => false
  reportIf (isImplicit && nested) between.stop .nestedInKeyLine
  reportIf (isImplicit && decide (before.start + 1024 < colon.offset)) keyOffset .longKey

/-- An item of a block sequence has its dash. -/
def checkDash (offset : Nat) (before : Properties) (value : Option Layout) : Reported Unit :=
  match before.indicator, value with
  | some _, _ => pure ()
  | none, some (.blockSequence ..) => report before.stop .unevenSequence
  | none, _ => report offset .missingItemIndicator

/-- Where a flow collection has no item, there is nothing but blanks before its
end. -/
def checkNoItem (kind : CollectionKind) (isFirst isLast : Bool) (before : Properties) :
    Reported Unit :=
  match before.comma with
  | some comma =>
    if isFirst then report comma.offset (.unexpectedIn "," kind)
    else reportIf (!isLast) before.start (.emptyItem kind)
  | none => reportIf (!isLast) before.start (.emptyItem kind)

/-- There is a comma in front of every item of a flow collection but the
first. -/
def checkComma (kind : CollectionKind) (isFirst : Bool) (before : Properties) : Reported Unit :=
  match before.comma with
  | some comma => reportIf isFirst comma.offset (.unexpectedIn "," kind)
  | none => reportIf (!isFirst) before.start (.missingComma kind)

/-- A key and a value of a flow collection have a colon between them. -/
def checkSeparator (kind : CollectionKind) (isImplicit : Bool) (start : Nat)
    (separator : List Token) (between : Properties) (value : Option Layout) : Reported Unit :=
  match between.indicator, value with
  | some colon, _ =>
    if kind == .flowSequence && isImplicit then checkPairKey start separator colon else pure ()
  | none, some value =>
    if value.firstCharacter? == some ':' then
      report value.offset (.missingSpaceAfterColon kind)
    else report between.start (.missingCommaOrColon kind)
  | none, none => pure ()

mutual

/-- The node of a layout tree behind its properties. -/
def ofLayout (handles : TagHandles) (isRoot : Bool) (properties : Properties) :
    Layout → Reported Placed
  | .scalar form offset _ text ending =>
    if form == .aliased then ofAlias properties offset text (ending.getD [])
    else ofFlowScalar handles properties form offset text (ending.getD [])
  | .blockScalar offset indent header text =>
    ofBlockScalar handles isRoot properties offset indent header text
  | .blockMap offset indent entries => do
    let _ ← tagOf handles unreadMappings properties
    let (pairs, stop) ← mapPairs handles indent [] none offset entries
    checkAnchor properties
    return ⟨.mapping pairs (some offset), stop⟩
  | .blockSequence offset indent entries => do
    let _ ← tagOf handles unreadSequences properties
    checkSequenceLine properties
    let (items, stop) ← sequenceItems handles indent [] none offset entries
    checkAnchor properties
    return ⟨.sequence items (some offset), stop⟩
  | .flow offset indent opening entries closing => do
    let kind := kindOfFlow opening
    let _ ← tagOf handles (if kind = .flowMap then unreadMappings else unreadSequences) properties
    let (items, last) ← flowItems handles kind indent true [] opening.stop entries
    let stop ← readClosing kind last closing
    checkAnchor properties
    let node : Node :=
      if kind = .flowMap then .mapping (items.filterMap FlowItem.pair?) (some offset)
      else .sequence (items.map FlowItem.node) (some offset)
    return ⟨node, stop⟩
  | .misplaced token fault => do
    report token.offset fault
    empty handles properties token.offset
termination_by structural layout => layout

/-- The node of a layout tree inside another one, or an empty one at an offset
where there is none. -/
def ofOption (handles : TagHandles) (properties : Properties) (missing : Nat) :
    Option Layout → Reported Placed
  | some layout => ofLayout handles false properties layout
  | none => empty handles properties missing
termination_by structural layout => layout

/-- The value of a pair in a flow collection; without a colon it may be
missing. -/
def flowValue (handles : TagHandles) (between : Properties) (missing : Nat) :
    Option Layout → Reported (Option Placed)
  | some layout => do
    let placed ← ofLayout handles false between layout
    reportIf layout.isBlockCollection placed.offset .blockInFlow
    return some placed
  | none => if between.indicator.isSome then some <$> empty handles between missing else pure none
termination_by structural layout => layout

/-- The pairs of a block mapping from an offset on, after the earlier pairs in
reverse order; `comment` is the offset behind an entry that holds only a
comment. -/
def mapPairs (handles : TagHandles) (indent : Nat) (earlier : List (Node × Option Node))
    (comment : Option Nat) (offset : Nat) :
    List (Entry Layout) → Reported (List (Node × Option Node) × Nat)
  | [] => do
    match comment with
    | some comment =>
      reportIf (0 < comment && comment < offset) comment .commentBeforeContent
      return (earlier.reverse, comment)
    | none => return (earlier.reverse, offset)
  | ⟨start, _, key, separator, value⟩ :: rest => do
    let before ← Properties.read start (keyPlace .block indent offset true key separator)
    let isImplicit := before.indicator.isNone
    checkKeyPlace indent offset before key
    if isImplicit && !before.named && separator.isNone then
      mapPairs handles indent earlier (some before.stop) offset rest
    else
      let severalLines := before.newlineAfter.isSome || key.any Layout.spansLines
      let keyOffset := ((key.map Layout.offset).or (start.getLast?.map Token.offset)).getD offset
      reportIf (isImplicit && severalLines) keyOffset .keyOverSeveralLines
      let keyNode ← ofOption handles before (emptyOffset before.stop start) key
      reportIf (hasKey earlier keyNode.node) before.stop .duplicateKey
      let between ← Properties.read (separator.getD [])
        (valuePlace .block indent keyNode.stop (endsLine key) value)
      match between.indicator with
      | some colon =>
        checkColon isImplicit before between colon keyNode.offset value
        let valueNode ←
          ofOption handles between (emptyOffset between.stop (separator.getD [])) value
        mapPairs handles indent ((keyNode.node, some valueNode.node) :: earlier) comment
          valueNode.stop rest
      | none =>
        reportIf isImplicit keyNode.offset .keyWithoutValue
        mapPairs handles indent ((keyNode.node, none) :: earlier) comment between.stop rest
termination_by structural entries => entries

/-- The items of a block sequence from an offset on, after the earlier items
in reverse order. -/
def sequenceItems (handles : TagHandles) (indent : Nat) (earlier : List Node)
    (comment : Option Nat) (offset : Nat) :
    List (Entry Layout) → Reported (List Node × Nat)
  | [] => pure (earlier.reverse, comment.getD offset)
  | ⟨start, _, _, _, value⟩ :: rest => do
    let before ← Properties.read start
      { indicator := .sequenceItem, following := .ofNode value, offset
        parentIndent := indent, startsLine := true }
    if before.indicator.isNone && !before.named && value.isNone then
      sequenceItems handles indent earlier (some before.stop) offset rest
    else
      checkDash offset before value
      let item ← ofOption handles before (emptyOffset before.stop start) value
      sequenceItems handles indent (item.node :: earlier) comment item.stop rest
termination_by structural entries => entries

/-- The items of a flow collection from an offset on, after the earlier items
in reverse order. -/
def flowItems (handles : TagHandles) (kind : CollectionKind) (indent : Nat) (isFirst : Bool)
    (earlier : List FlowItem) (offset : Nat) :
    List (Entry Layout) → Reported (List FlowItem × Nat)
  | [] => pure (earlier.reverse, offset)
  | ⟨start, _, key, separator, value⟩ :: rest => do
    let before ← Properties.read start (keyPlace kind indent offset false key separator)
    let isImplicit := before.indicator.isNone
    if isImplicit && !before.named && separator.isNone && value.isNone then
      checkNoItem kind isFirst rest.isEmpty before
      flowItems handles kind indent false earlier before.stop rest
    else
      let keyOffset := (key.map Layout.offset).getD offset
      reportIf (isImplicit && kind == .flowSequence && key.any Layout.spansLines)
        keyOffset .pairKeyOverSeveralLines
      checkComma kind isFirst before
      if kind == .flowSequence && separator.isNone && isImplicit then
        let item ← ofOption handles before before.stop value
        reportIf (value.any Layout.isBlockCollection) item.offset .blockInFlow
        flowItems handles kind indent false (.single item.node :: earlier) item.stop rest
      else
        let keyNode ← ofOption handles before (emptyOffset before.stop start) key
        reportIf (key.any Layout.isBlockCollection) keyNode.offset .blockInFlow
        let between ← Properties.read (separator.getD [])
          (valuePlace kind indent keyNode.stop false value)
        checkSeparator kind isImplicit before.start (separator.getD []) between value
        let valueNode ←
          flowValue handles between (emptyOffset between.stop (separator.getD [])) value
        reportIf (kind == .flowMap && hasKey (earlier.filterMap FlowItem.pair?) keyNode.node)
          before.stop .duplicateKey
        flowItems handles kind indent false
          (.pair keyNode.node (valueNode.map (·.node)) :: earlier)
          ((valueNode.map (·.stop)).getD between.stop) rest
termination_by structural entries => entries

end

end Placed

end IdlLinker.Yaml
