import IdlLinker.Yaml.Fault
import IdlLinker.Yaml.Layout

/-!
# Streams

A stream is a sequence of parts: directives, documents, the markers that end
them, and tokens that stand outside of any document.
-/

namespace IdlLinker.Yaml

/-- A document with its tokens: what stands in front of its content, the
content, and what follows it. -/
structure DocumentLayout where
  offset : Nat
  start : List Token := []
  content : Option Layout := none
  ending : List Token := []

/-- A part of a stream. -/
inductive Part
  | directive (token : Token)
  | document (document : DocumentLayout)
  | documentEnd (token : Token) (ending : List Token)
  | stray (token : Token) (fault : Fault)

/-- The parts of a stream, and the offsets at which its lines start, in
increasing order. -/
structure Stream where
  parts : List Part
  lineStarts : List Nat

/-- A place for readers: line and column count from one. -/
structure Position where
  line : Nat
  column : Nat
  deriving DecidableEq, Repr

/-- Go on to the last line that starts at an offset or before it, from the line
with a number and a start. -/
def lastLineTo (offset : Nat) : (line start : Nat) → List Nat → Nat × Nat
  | line, start, [] => (line, start)
  | line, start, next :: rest =>
    if next ≤ offset then lastLineTo offset (line + 1) next rest else (line, start)

/-- The line and the column of an offset. -/
def Stream.positionOf (stream : Stream) (offset : Nat) : Position :=
  let (line, start) := lastLineTo offset 0 0 stream.lineStarts
  { line, column := offset - start + 1 }

end IdlLinker.Yaml
