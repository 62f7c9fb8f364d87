import IdlLinker.Yaml.Stream.Assembly

/-!
# Tokens of flow collections

Which place a token takes in a flow collection.  Indentation does not matter
between the brackets; behind the closing bracket, a colon makes the whole
collection a key.
-/

namespace IdlLinker.Yaml

namespace Assembly

/-- A token of a flow collection that is not closed. -/
def inFlow? (assembly : Assembly) (token : Token) (offset indent : Nat) (opening : Token)
    (entries : List (Entry Layout)) : Option Assembly :=
  let rebuilt (entries : List (Entry Layout)) : Assembly :=
    assembly.become (.flow offset indent opening entries [])
  let closed : Assembly := assembly.become (.flow offset indent opening entries [token])
  let started : Assembly :=
    rebuilt <|
      match entries with
      | [] => [{ start := [token] }]
      | last :: earlier =>
        if last.separator.isSome then { start := [token] } :: entries
        else { last with start := last.start ++ [token] } :: earlier
  let coloned : Assembly :=
    rebuilt <|
      match entries with
      | [] => [{ separator := some [token] }]
      | last :: earlier =>
        if last.value.isSome then { separator := some [token] } :: entries
        else { last with separator := some (last.separator.getD [] ++ [token]) } :: earlier
  let trivia : Assembly :=
    rebuilt <|
      match entries with
      | [] => [{ start := [token] }]
      | last :: earlier =>
        if last.value.isSome then { start := [token] } :: entries
        else
          match last.separator with
          | some separator => { last with separator := some (separator ++ [token]) } :: earlier
          | none => { last with start := last.start ++ [token] } :: earlier
  match token.kind with
  | .comma => some started
  | .explicitKey => some started
  | .mappingValue => some coloned
  | .space => some trivia
  | .comment => some trivia
  | .newline => some trivia
  | .anchor => some trivia
  | .tag => some trivia
  | .flowMapEnd => some closed
  | .flowSequenceEnd => some closed
  | kind =>
    match ScalarForm.ofKind? kind with
    | some form =>
      let key : Layout := .scalar form token.offset token.indent token.text none
      let placed : Assembly :=
        match entries with
        | [] => rebuilt [{ key := some key, separator := some [] }]
        | last :: earlier =>
          if last.value.isSome then
            rebuilt ({ key := some key, separator := some [] } :: entries)
          else if last.separator.isSome then
            assembly.push (.scalar form token.offset token.indent token.text none)
          else rebuilt ({ last with key := some key, separator := some [] } :: earlier)
      some (placed.noteLines token)
    | none => (Frame.ofToken? token).map assembly.push

/-- A token behind a closed flow collection: a colon makes it the key of a
mapping, unless it already is one. -/
def afterFlow? (assembly : Assembly) (token : Token) (offset indent : Nat) (opening : Token)
    (entries : List (Entry Layout)) (closing : List Token) : Option Assembly :=
  let outer : Assembly := { assembly with stack := assembly.stack.tail }
  let isKey : Bool :=
    match outer.stack with
    | .blockMap _ outerIndent last _ :: _ =>
      (token.kind == .mappingValue && outerIndent == indent) ||
        (token.kind == .newline && last.separator.isNone)
    | _ => false
  let inFlow : Bool := outer.stack.head?.any Frame.isFlowCollection
  if isKey then none
  else if token.kind == .mappingValue && !inFlow then
    let (taken, outer) := outer.takeKeyStart
    let entries := settleFlow opening entries.reverse
    let first : Entry Layout :=
      { start := taken
        key := some (.flow offset indent opening entries (closing.take 1))
        separator := some (closing.drop 1 ++ [token]) }
    some ({ outer with onKeyLine := true }.push (.blockMap offset indent first []))
  else assembly.atEnding? (.flow offset indent opening entries closing) token

end Assembly

end IdlLinker.Yaml
