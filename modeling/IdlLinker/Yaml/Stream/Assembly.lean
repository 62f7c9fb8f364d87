import IdlLinker.Yaml.Stream.Frame

/-!
# Assemblies

An assembly is a stream that is not complete yet: a stack of open frames, the
innermost first, with the parts that are finished.  Closing the innermost
frame moves what it holds into the frame around it.
-/

namespace IdlLinker.Yaml

/-- The state of the assembly: the open frames, the finished parts and the
starts of lines with the last one first, and where the next lexeme stands. -/
structure Assembly where
  stack : List Frame := []
  parts : List Part := []
  lineStarts : List Nat := [0]
  offset : Nat := 0
  indent : Nat := 0
  atLineStart : Bool := true
  onKeyLine : Bool := false

namespace Assembly

/-- Open a frame. -/
def push (assembly : Assembly) (frame : Frame) : Assembly :=
  { assembly with stack := frame :: assembly.stack }

/-- Replace the innermost frame. -/
def become (assembly : Assembly) (frame : Frame) : Assembly :=
  { assembly with stack := frame :: assembly.stack.tail }

/-- Add a part to the stream. -/
def emit (assembly : Assembly) (part : Part) : Assembly :=
  { assembly with parts := part :: assembly.parts }

/-- Note the lines that start inside a token. -/
def noteLines (assembly : Assembly) (token : Token) : Assembly :=
  let rec starts (offset : Nat) (found : List Nat) : List Char → List Nat
    | [] => found
    | character :: rest =>
      let next := offset + Text.unitsOfChar character
      starts next (if character == '\n' then next :: found else found) rest
  { assembly with lineStarts := starts token.offset assembly.lineStarts token.text.toList }

/-- Put a node into the innermost frame. -/
def attach (assembly : Assembly) (node : Layout) : Assembly :=
  match assembly.stack with
  | [] => assembly
  | frame :: outer =>
    let (frame, keyLine) := frame.accept node
    { assembly with
      stack := frame :: outer
      onKeyLine := keyLine.getD assembly.onKeyLine }

/-- Close the innermost frame. -/
def pop (assembly : Assembly) : Assembly :=
  match assembly.stack with
  | [] => assembly
  | frame :: outer =>
    let assembly := { assembly with stack := outer }
    match frame.finish with
    | .inl part => assembly.emit part
    | .inr node => assembly.attach node

/-- Close the innermost frames that a test holds of, as many as there are. -/
def popWhile (test : Frame → Bool) : (depth : Nat) → Assembly → Assembly
  | 0, assembly => assembly
  | depth + 1, assembly =>
    match assembly.stack with
    | [] => assembly
    | frame :: _ => if test frame then popWhile test depth assembly.pop else assembly

/-- Close all frames. -/
def popAll (assembly : Assembly) : Assembly :=
  popWhile (fun _ => true) assembly.stack.length assembly

/-- Put a token where a node was expected. -/
def misplace (assembly : Assembly) (token : Token) (fault : Fault) : Assembly :=
  let assembly :=
    match assembly.stack with
    | .scalar .. :: _ => assembly.pop
    | .documentEnd .. :: _ => assembly.pop
    | _ => assembly
  if assembly.stack.isEmpty then assembly.emit (.stray token fault)
  else assembly.attach (.misplaced token fault)

/-- Take the tokens of an implicit key out of the innermost frame. -/
def takeKeyStart (assembly : Assembly) : List Token × Assembly :=
  match assembly.stack with
  | [] => ([], assembly)
  | frame :: outer =>
    let (taken, frame) := frame.takeKeyStart
    (taken, { assembly with stack := frame :: outer })

/-- Open the frame of a node that a token starts in the innermost frame. -/
def begin? (assembly : Assembly) (token : Token) : Option Assembly :=
  match token.kind with
  | .explicitKey =>
    let (taken, assembly) := assembly.takeKeyStart
    let first : Entry Layout := { start := taken ++ [token], explicitKey := true }
    some ({ assembly with onKeyLine := true }.push (.blockMap token.offset token.indent first []))
  | .mappingValue =>
    let (taken, assembly) := assembly.takeKeyStart
    let first : Entry Layout := { start := taken, separator := some [token] }
    some ({ assembly with onKeyLine := true }.push (.blockMap token.offset token.indent first []))
  | kind =>
    let assembly := if kind.isFlowScalar then assembly.noteLines token else assembly
    (Frame.ofToken? token).map assembly.push

/-- A token behind a complete node.  Line ends close the node, and tokens that
belong to what is around it have no place here. -/
def atEnding? (assembly : Assembly) (frame : Frame) (token : Token) : Option Assembly :=
  let added := assembly.become (frame.addEnding token)
  match token.kind with
  | .comma => none
  | .documentStart => none
  | .documentEnd => none
  | .flowSequenceEnd => none
  | .flowMapEnd => none
  | .mappingValue => none
  | .newline => some { added with onKeyLine := false }.pop
  | _ => some added

end Assembly

end IdlLinker.Yaml
