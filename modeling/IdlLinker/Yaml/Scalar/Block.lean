import IdlLinker.Text.Lines
import IdlLinker.Yaml.Reported

/-!
# Block scalars

The text of a literal or folded scalar.  The header says whether lines are
folded, how deep the text is indented and what happens to the line ends at its
end; without a written indentation the first line with content sets it.
-/

namespace IdlLinker.Yaml

open Text (units unitsOfChar unitsOfChars)

/-- What happens to the line ends at the end of a block scalar. -/
inductive Chomping
  | clip
  | strip
  | keep
  deriving DecidableEq, Repr

/-- The header of a block scalar.  The width counts the units up to the first
line of the text. -/
structure BlockHeader where
  folded : Bool
  indent : Nat := 0
  chomping : Option Chomping := none
  width : Nat := 0

/-- Read the characters of a header after the first one.  The first character
that has no meaning is reported. -/
def readHeader (offset : Nat) (text : String) (header : BlockHeader) (faulty : Bool) :
    List Char → Reported BlockHeader
  | [] => pure header
  | character :: rest =>
    let next := offset + unitsOfChar character
    let chomping : Option Chomping :=
      match character with
      | '-' => some .strip
      | '+' => some .keep
      | _ => none
    if header.chomping.isNone && chomping.isSome then
      readHeader next text { header with chomping } faulty rest
    else if header.indent = 0 && decide ('1' ≤ character ∧ character ≤ '9') then
      readHeader next text { header with indent := character.toNat - '0'.toNat } faulty rest
    else do
      reportIf (!faulty) offset (.extraInBlockHeader text)
      readHeader next text header true rest

/-- Go over the tokens after a header up to the end of its line. -/
def readHeaderLine (spaced : Bool) : List Token → Reported Unit
  | [] => pure ()
  | token :: rest => do
    match token.kind with
    | .comment => reportIf (!spaced) token.offset .unseparatedComment
    | .unknown => report token.offset (.notAToken token.text)
    | _ => pure ()
    readHeaderLine (spaced || token.kind == .space) rest

/-- The header of a block scalar with the tokens on its line. -/
def BlockHeader.ofTokens : List Token → Reported BlockHeader
  | [] => pure { folded := false }
  | token :: rest => do
    let folded := token.text.startsWith ">"
    let first : BlockHeader := { folded }
    let header ← readHeader (token.offset + 1) token.text first false token.text.toList.tail
    readHeaderLine false rest
    return { header with width := Token.width (token :: rest) }

/-- A line of a block scalar: the number of spaces it starts with, and the
rest of it. -/
structure BlockLine where
  indent : Nat
  content : List Char

namespace BlockLine

/-- Cut a line after its spaces. -/
def ofChars (line : List Char) : BlockLine where
  indent := (line.takeWhile (· == ' ')).length
  content := line.dropWhile (· == ' ')

/-- A line without content; a carriage return is none. -/
def isBlank (line : BlockLine) : Bool := line.content == [] || line.content == ['\r']

/-- The units of a line with its line end. -/
def width (line : BlockLine) : Nat := line.indent + unitsOfChars line.content + 1

/-- The spaces of a line beyond an indentation. -/
def beyond (indent : Nat) (line : BlockLine) : List Char :=
  List.replicate (line.indent - indent) ' '

end BlockLine

/-- The indentation of a block scalar without a written one: of the first line
with content.  Blank lines in front of it may not be indented deeper. -/
def findIndent (header : BlockHeader) (isRoot : Bool) (offset indent : Nat) :
    List BlockLine → Reported (Nat × Nat)
  | [] => pure (offset, indent)
  | line :: rest =>
    if line.isBlank then
      let indent := if header.indent = 0 then max indent line.indent else indent
      findIndent header isRoot (offset + line.width) indent rest
    else do
      reportIf (decide (line.indent < indent)) (offset + line.indent) .deepLeadingLines
      let indent := if header.indent = 0 then line.indent else indent
      reportIf (indent == 0 && !isRoot) offset .unindentedBlockScalar
      return (offset, indent)

/-- Where the lines of a folded scalar are: what stands in front of the next
line, and whether the line before it was indented deeper. -/
structure Folding where
  separator : List Char := []
  deeper : Bool := false

/-- Write the lines of a block scalar from the first one with content on. -/
def writeLines (header : BlockHeader) (indent : Nat) (offset : Nat) (folding : Folding) :
    List BlockLine → Reported (List Char)
  | [] => pure []
  | line :: rest => do
    let next := offset + line.width
    let returned := line.content.getLast? == some '\r'
    let content := if returned then line.content.dropLast else line.content
    let shallow := !content.isEmpty && decide (line.indent < indent)
    reportIf shallow (next - unitsOfChars content - (if returned then 2 else 1))
      (.shallowBlockLine (header.indent != 0))
    let spaces := if shallow then [] else line.beyond indent
    let (text, folding) : List Char × Folding :=
      if !header.folded then
        (folding.separator ++ spaces ++ content, { folding with separator := ['\n'] })
      else if (!shallow && decide (indent < line.indent)) || content.head? == some '\t' then
        let separator :=
          if folding.separator = [' '] then ['\n']
          else if !folding.deeper && folding.separator = ['\n'] then ['\n', '\n']
          else folding.separator
        (separator ++ spaces ++ content, { separator := ['\n'], deeper := true })
      else if content.isEmpty then
        if folding.separator = ['\n'] then (['\n'], folding)
        else ([], { folding with separator := ['\n'] })
      else (folding.separator ++ content, { separator := [' '] })
    return text ++ (← writeLines header indent next folding rest)

/-- The lines at the end of a block scalar as its chomping writes them. -/
def writeEnd (chomping : Chomping) (indent : Nat) (text : List Char)
    (lines : List BlockLine) : List Char :=
  match chomping with
  | .strip => text
  | .clip => text ++ ['\n']
  | .keep =>
    let kept := text ++ lines.flatMap fun line => '\n' :: line.beyond indent
    if kept.getLast? = some '\n' then kept else kept ++ ['\n']

/-- The text of a block scalar, and the units from its header to its end. -/
def blockText (isRoot : Bool) (offset outer : Nat) (tokens : List Token) (source : String) :
    Reported (String × Nat) := do
  let header ← BlockHeader.ofTokens tokens
  let chomping := header.chomping.getD .clip
  let width := header.width + units source
  let lines := if source.isEmpty then [] else (Text.lines source.toList).map BlockLine.ofChars
  let tail := (lines.reverse.takeWhile BlockLine.isBlank).reverse
  let body := lines.take (lines.length - tail.length)
  if body.isEmpty then
    let feeds := if chomping = .keep && !lines.isEmpty then max 1 (lines.length - 1) else 0
    return (String.ofList (List.replicate feeds '\n'), width)
  else
    let (start, indent) ←
      findIndent header isRoot (offset + header.width) (outer + header.indent) body
    let deepTail := (tail.reverse.dropWhile fun line => line.indent ≤ indent).reverse
    let rest := tail.drop deepTail.length
    let leading := body.takeWhile BlockLine.isBlank
    let content := body.dropWhile BlockLine.isBlank ++ deepTail
    let blank := leading.flatMap fun line => line.beyond indent ++ ['\n']
    let text ← writeLines header indent start {} content
    return (String.ofList (writeEnd chomping indent (blank ++ text) rest), width)

end IdlLinker.Yaml
