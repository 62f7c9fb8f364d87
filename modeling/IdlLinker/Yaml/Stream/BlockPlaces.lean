import IdlLinker.Yaml.Stream.Assembly

/-!
# Tokens of block collections

Which place a token takes in a block mapping or a block sequence.  It belongs
to the last entry, begins the next one, or begins a node inside; a token that
is indented too little has no place.
-/

namespace IdlLinker.Yaml

namespace Assembly

/-- A deeper comment in front of an entry belongs to the entry before it: the
earlier entries with what stands in front of the entry and the comment. -/
def giveComment? (indent : Nat) (token : Token) (start : List Token)
    (earlier : List (Entry Layout)) : Option (Entry Layout × List (Entry Layout)) :=
  let blank := start.all fun token => token.kind == .newline || token.kind == .space
  if token.kind == .comment && decide (indent < token.indent) && blank then
    match earlier with
    | previous :: others =>
      match previous.value with
      | some value =>
        value.ending?.map fun _ =>
          ({ previous with value := some (value.addEnding (start ++ [token])) }, others)
      | none => none
    | [] => none
  else none

/-- The last token behind a node is a comment. -/
def endsInComment (node : Layout) : Bool :=
  match node.ending? with
  | some tokens => tokens.getLast?.any fun token => token.kind == .comment
  | none => false

/-- A token in front of an entry, or the first token of the next entry. -/
def triviaInEntry (token : Token) (last : Entry Layout) (earlier : List (Entry Layout)) :
    Entry Layout × List (Entry Layout) :=
  match last.value, last.separator with
  | some value, _ =>
    if token.kind == .newline && endsInComment value then
      ({ last with value := some (value.addEnding [token]) }, earlier)
    else ({ start := [token] }, last :: earlier)
  | none, some separator => ({ last with separator := some (separator ++ [token]) }, earlier)
  | none, none => ({ last with start := last.start ++ [token] }, earlier)

/-- A colon in a block mapping. -/
def atMapColon (assembly : Assembly) (token : Token) (offset indent : Nat)
    (start : List Token) (next : Bool) (last : Entry Layout) (earlier : List (Entry Layout)) :
    Assembly :=
  let assembly := { assembly with onKeyLine := true }
  let stay (last : Entry Layout) : Assembly :=
    assembly.become (.blockMap offset indent last earlier)
  let add (entry : Entry Layout) : Assembly :=
    assembly.become (.blockMap offset indent entry (last :: earlier))
  let nest (last entry : Entry Layout) : Assembly :=
    (stay last).push (.blockMap token.offset token.indent entry [])
  let separator := last.separator.getD []
  let joined : Entry Layout := { last with separator := some (separator ++ [token]) }
  if last.explicitKey then
    if last.separator.isNone then
      if includes last.start .newline then
        stay { last with key := none, separator := some [token] }
      else
        let (kept, taken) := splitKeyStart last.start
        nest { last with start := kept } { start := taken, separator := some [token] }
    else if last.value.isSome then add { separator := some [token] }
    else if includes separator .mappingValue then
      nest last { start, separator := some [token] }
    else if last.key.any Layout.isFlow && !includes separator .newline then
      let (kept, taken) := splitKeyStart last.start
      nest { last with start := kept, key := none, separator := none }
        { start := taken, key := last.key, separator := some (separator ++ [token]) }
    else if start.isEmpty then stay joined
    else stay { last with separator := some (separator ++ start ++ [token]) }
  else if last.separator.isNone then
    stay { last with key := none, separator := some [token] }
  else if last.value.isSome || next then add { start, separator := some [token] }
  else if includes separator .mappingValue then nest last { separator := some [token] }
  else stay joined

/-- A token of a block mapping that is not trivia and is indented enough. -/
def inBlockMap? (assembly : Assembly) (token : Token) (offset indent : Nat)
    (last : Entry Layout) (earlier : List (Entry Layout)) : Option Assembly :=
  let atIndent := !assembly.onKeyLine && token.indent == indent
  let next := atIndent && (last.separator.isSome || last.explicitKey) &&
    token.kind != .sequenceItem
  let (last, start) :=
    match last.separator, last.value with
    | some separator, none =>
      let (kept, start) := if next then splitBlankLines indent separator else (separator, [])
      ({ last with separator := some kept }, start)
    | _, _ => (last, [])
  let fresh := next || last.value.isSome
  let stay (last : Entry Layout) : Assembly :=
    assembly.become (.blockMap offset indent last earlier)
  let add (entry : Entry Layout) : Assembly :=
    assembly.become (.blockMap offset indent entry (last :: earlier))
  let onKeyLine (assembly : Assembly) : Assembly := { assembly with onKeyLine := true }
  let property : Assembly :=
    if fresh then onKeyLine (add { start := start ++ [token] })
    else
      match last.separator with
      | some separator => stay { last with separator := some (separator ++ [token]) }
      | none => stay { last with start := last.start ++ [token] }
  match token.kind with
  | .anchor => some property
  | .tag => some property
  | .explicitKey =>
    some <| onKeyLine <|
      if last.separator.isNone && !last.explicitKey then
        stay { last with start := last.start ++ [token], explicitKey := true }
      else if fresh then add { start := start ++ [token], explicitKey := true }
      else
        (stay last).push
          (.blockMap token.offset token.indent { start := [token], explicitKey := true } [])
  | .mappingValue => some (assembly.atMapColon token offset indent start next last earlier)
  | kind =>
    match ScalarForm.ofKind? kind with
    | some form =>
      let key : Layout := .scalar form token.offset token.indent token.text none
      let placed : Assembly :=
        if fresh then onKeyLine (add { start, key := some key, separator := some [] })
        else if last.separator.isSome then
          (stay last).push (.scalar form token.offset token.indent token.text none)
        else onKeyLine (stay { last with key := some key, separator := some [] })
      some (placed.noteLines token)
    | none =>
      (Frame.ofToken? token).map fun frame =>
        if kind == .sequenceItem then
          if !last.explicitKey && last.separator.any (!includes · .newline) then
            (stay last).misplace token .sequenceOnKeyLine
          else (stay last).push frame
        else if atIndent then (add { start }).push frame
        else (stay last).push frame

/-- A token of a block mapping. -/
def atBlockMap? (assembly : Assembly) (token : Token) (offset indent : Nat)
    (last : Entry Layout) (earlier : List (Entry Layout)) : Option Assembly :=
  let rebuilt (entries : Entry Layout × List (Entry Layout)) : Assembly :=
    assembly.become (.blockMap offset indent entries.1 entries.2)
  let trivia := rebuilt (triviaInEntry token last earlier)
  let bare := last.value.isNone && last.separator.isNone
  match token.kind with
  | .newline => some { trivia with onKeyLine := false }
  | .space => some trivia
  | .comment =>
    match if bare then giveComment? indent token last.start earlier else none with
    | some entries => some (rebuilt entries)
    | none => some trivia
  | _ =>
    if indent ≤ token.indent then assembly.inBlockMap? token offset indent last earlier
    else none

/-- A token of a block sequence. -/
def atBlockSequence? (assembly : Assembly) (token : Token) (offset indent : Nat)
    (last : Entry Layout) (earlier : List (Entry Layout)) : Option Assembly :=
  let rebuilt (entries : Entry Layout × List (Entry Layout)) : Assembly :=
    assembly.become (.blockSequence offset indent entries.1 entries.2)
  let trivia := rebuilt (triviaInEntry token { last with separator := none } earlier)
  let begun := rebuilt ({ last with start := last.start ++ [token] }, earlier)
  let content : Option Assembly :=
    if indent < token.indent then assembly.begin? token else none
  let property : Option Assembly :=
    if last.value.isSome || decide (token.indent ≤ indent) then content else some begun
  match token.kind with
  | .newline => some trivia
  | .space => some trivia
  | .comment =>
    match if last.value.isNone then giveComment? indent token last.start earlier else none with
    | some entries => some (rebuilt entries)
    | none => some trivia
  | .anchor => property
  | .tag => property
  | .sequenceItem =>
    if token.indent != indent then content
    else if last.value.isSome || includes last.start .sequenceItem then
      some (rebuilt ({ start := [token] }, last :: earlier))
    else some begun
  | _ => content

end Assembly

end IdlLinker.Yaml
