import IdlLinker.Yaml.Layout
import IdlLinker.Yaml.Reported

/-!
# What stands around a node

In front of a node there may be an indicator, an anchor and a tag, with spaces,
comments and line ends among them; behind it, only spaces and comments.  This
module reads both and reports what is out of place.
-/

namespace IdlLinker.Yaml

open Text (units)

/-- What follows the tokens in front of a node. -/
inductive Following
  | nothing
  | token (token : Token)
  | node (node : Layout)

namespace Following

/-- The node that follows, or else a token. -/
def ofNode (node : Option Layout) (token : Option Token := none) : Following :=
  match node, token with
  | some node, _ => .node node
  | none, some token => .token token
  | none, none => .nothing

/-- The offset of what follows, if it has to be separated from an anchor or a
tag in front of it. -/
def separableOffset? : Following → Option Nat
  | nothing => none
  | node (.scalar .plain _ _ "" _) => none
  | node layout => some layout.offset
  | token following =>
    match following.kind with
    | .space => none
    | .newline => none
    | .comma => none
    | .scalar => if following.text.isEmpty then none else some following.offset
    | _ => some following.offset

/-- A flow collection follows. -/
def isFlowCollection : Following → Bool
  | node (.flow ..) => true
  | _ => false

/-- A block collection follows. -/
def isBlockCollection : Following → Bool
  | node layout => layout.isBlockCollection
  | _ => false

end Following

/-- Where the tokens in front of a node stand: in which collection, with which
indicator, and what follows them. -/
structure Place where
  collection : CollectionKind := .block
  indicator : TokenKind
  following : Following
  offset : Nat
  parentIndent : Nat
  startsLine : Bool

/-- The tokens in front of a node, sorted out. -/
structure Properties where
  comma : Option Token := none
  indicator : Option Token := none
  anchor : Option Token := none
  tag : Option Token := none
  commented : Bool := false
  newline : Bool := false
  newlineAfter : Option Token := none
  start : Nat
  stop : Nat

namespace Properties

/-- There is an anchor or a tag. -/
def named (properties : Properties) : Bool :=
  properties.anchor.isSome || properties.tag.isSome

/-- The state of reading the tokens in front of a node: whether the line has
just started, whether there was a space, whether one has to follow, and a
token of tabs that may turn out to be indentation. -/
structure Reading where
  found : Properties
  started : Option Nat := none
  atLineStart : Bool
  spaced : Bool
  spaceNeeded : Bool := false
  tab : Option Token := none

/-- Spaces, line ends and commas separate an anchor or a tag. -/
def separates (kind : TokenKind) : Bool :=
  kind == .space || kind == .newline || kind == .comma

/-- Read a token in front of a node. -/
def readToken (place : Place) (reading : Reading) (token : Token) : Reported Reading := do
  let inFlow := place.collection != .block
  reportIf (reading.spaceNeeded && !separates token.kind) token.offset .unseparatedProperty
  match reading.tab with
  | some tab =>
    reportIf (reading.atLineStart && token.kind != .comment && token.kind != .newline)
      tab.offset .tabIndentation
  | none => pure ()
  let reading := { reading with spaceNeeded := false, tab := none }
  let found := reading.found
  let passed := { reading with atLineStart := false, spaced := false }
  let unexpected : Reported Reading := do
    report token.offset (.unexpectedToken token.kind)
    return passed
  let property (found : Properties) : Reading :=
    { passed with
      found
      spaceNeeded := true
      started := some (reading.started.getD token.offset) }
  match token.kind with
  | .space =>
    let free := inFlow || (place.indicator == .documentStart && place.following.isFlowCollection)
    let tab := if !free && token.text.contains '\t' then some token else none
    return { reading with spaced := true, tab }
  | .comment =>
    reportIf (!reading.spaced) token.offset .unseparatedComment
    return { reading with found := { found with commented := true }, atLineStart := false }
  | .newline =>
    let newlineAfter := if found.named then some token else found.newlineAfter
    return { reading with
      found := { found with newline := true, newlineAfter }
      atLineStart := true
      spaced := true }
  | .anchor =>
    reportIf found.anchor.isSome token.offset .severalAnchors
    return property { found with anchor := some token }
  | .tag =>
    reportIf found.tag.isSome token.offset .severalTags
    return property { found with tag := some token }
  | .comma =>
    if inFlow then
      reportIf found.comma.isSome token.offset (.unexpectedIn "," place.collection)
      return { passed with found := { found with comma := some token } }
    else unexpected
  | kind =>
    if kind == place.indicator then
      reportIf found.named token.offset (.propertyBeforeIndicator token.text)
      reportIf found.indicator.isSome token.offset (.unexpectedIn token.text place.collection)
      return { passed with
        found := { found with indicator := some token }
        atLineStart := kind == .sequenceItem || kind == .explicitKey }
    else unexpected

/-- Read the tokens in front of a node. -/
def read (tokens : List Token) (place : Place) : Reported Properties := do
  let stop := (tokens.getLast?.map Token.stop).getD place.offset
  let initial : Reading :=
    { found := { start := stop, stop }
      atLineStart := place.startsLine
      spaced := place.startsLine }
  let reading ← tokens.foldlM (readToken place) initial
  match place.following.separableOffset? with
  | some offset => reportIf reading.spaceNeeded offset .unseparatedProperty
  | none => pure ()
  match reading.tab with
  | some tab =>
    reportIf ((reading.atLineStart && decide (tab.indent ≤ place.parentIndent)) ||
      place.following.isBlockCollection) tab.offset .tabIndentation
  | none => pure ()
  return { reading.found with start := reading.started.getD stop }

end Properties

/-- Read the tokens behind a node from an offset on; the result is the offset
behind them. -/
def readEnding (tokens : List Token) (offset : Nat) (strict : Bool) : Reported Nat := do
  let (_, stop) ← tokens.foldlM (fun (spaced, offset) token => do
    let next := offset + units token.text
    match token.kind with
    | .space => return (true, next)
    | .newline => return (true, next)
    | .comment =>
      reportIf (strict && !spaced) token.offset .unseparatedComment
      return (spaced, next)
    | kind =>
      report token.offset (.unexpectedAtNodeEnd kind)
      return (spaced, next)) (false, offset)
  return stop

/-- The place of a node without text among the tokens in front of it: behind
the last one that is more than trivia, and the spaces that follow that one. -/
def emptyOffset (offset : Nat) (tokens : List Token) : Nat :=
  let tail := (tokens.reverse.takeWhile (·.kind.isTrivia)).reverse
  let front := offset - Token.width tail
  if tail.length < tokens.length then
    front + Token.width (tail.takeWhile fun token => token.kind == .space)
  else front

end IdlLinker.Yaml
