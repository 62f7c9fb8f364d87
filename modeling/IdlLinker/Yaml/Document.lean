import IdlLinker.Yaml.Node.OfLayout
import IdlLinker.Yaml.Parsed
import IdlLinker.Yaml.Plain
import IdlLinker.Yaml.Stream.OfText

/-!
# Documents

The document of a stream: the first one in it.  A second document is a fault
of the first, and whatever follows the start of a second document is not
looked at.  A stream of blanks and comments has a document without content.
-/

namespace IdlLinker.Yaml

/-- A document: its content, if it has one, and the faults in it. -/
structure Document where
  content : Option Node := none
  reports : List Report := []

namespace Document

/-- The parts of a stream read so far: the handles for the next document, the
faults that belong to it, whether directives wait for it, and the document. -/
structure Progress where
  handles : TagHandles := .initial
  pending : List Report := []
  directed : Bool := false
  document : Option Document := none

/-- Read a document with its tokens. -/
def ofLayout (handles : TagHandles) (directed : Bool) (layout : DocumentLayout) :
    Reported Node := do
  let before ← Properties.read layout.start
    { indicator := .documentStart
      following := .ofNode layout.content layout.ending.head?
      offset := layout.offset
      parentIndent := 0
      startsLine := true }
  let collection := layout.content.any Layout.isBlockCollection
  reportIf (before.indicator.isSome && collection && !before.newline)
    before.stop .collectionOnStartLine
  let content ←
    match layout.content with
    | some content => Placed.ofLayout handles true before content
    | none => Placed.empty handles before (emptyOffset before.stop layout.start)
  let _ ← readEnding layout.ending content.stop false
  reportIf (directed && before.indicator.isNone) layout.offset .missingDocumentStart
  return content.node

/-- Add faults to the document that was read last, or keep them for the next
one. -/
def Progress.add (progress : Progress) (reports : List Report) : Progress :=
  match progress.document with
  | some document =>
    { progress with document := some { document with reports := document.reports ++ reports } }
  | none => { progress with pending := progress.pending ++ reports }

/-- Read the parts of a stream up to the start of a second document. -/
def readParts (length : Nat) (progress : Progress) : List Part → Document
  | [] =>
    match progress.document with
    | some document => { document with reports := document.reports ++ progress.pending }
    | none =>
      let missing : List Report :=
        if progress.directed then [⟨length, .missingDirectivesEnd⟩] else []
      { reports := progress.pending ++ missing }
  | .directive token :: rest =>
    let obeyed := progress.handles.obey token
    readParts length
      { progress with
        handles := obeyed.value
        pending := progress.pending ++ obeyed.notes
        directed := true } rest
  | .document layout :: rest =>
    match progress.document with
    | some document =>
      { document with reports := document.reports ++ [⟨layout.offset, .severalDocuments⟩] }
    | none =>
      let made := ofLayout progress.handles progress.directed layout
      let document : Document :=
        { content := some made.value, reports := progress.pending ++ made.notes }
      readParts length { document := some document } rest
  | .documentEnd token ending :: rest =>
    let ended := readEnding ending token.stop true
    let progress := progress.add (progress.pending ++ ended.notes)
    readParts length { progress with pending := [] } rest
  | .stray token fault :: rest =>
    let reports : List Report := [⟨token.offset, .citing fault token.text⟩]
    let progress :=
      if progress.directed then { progress with pending := progress.pending ++ reports }
      else progress.add reports
    readParts length progress rest

/-- The document of a stream with a number of units. -/
def ofStream (length : Nat) (stream : Stream) : Document := readParts length {} stream.parts

end Document

/-! ## Messages -/

/-- The longest line of which an excerpt shows all. -/
def excerptWidth : Nat := 80

/-- The first line of a text has nothing to show in an excerpt. -/
def startsBlank (text : String) : Bool :=
  let line := text.toList.takeWhile (· != '\n')
  let shown := (line.reverse.dropWhile (· == '\r')).reverse
  decide (shown.length ≤ excerptWidth) && shown.all (· == ' ')

/-- The first line of the message of a fault, with its place.  A colon announces an
excerpt, which is not given; a blank first line has none. -/
def Report.headline (report : Report) (text : String) (position : Position) : String :=
  report.fault.message ++ " at line " ++ toString position.line ++ ", column " ++
    toString position.column ++
    (if position.line = 1 && startsBlank text then "" else ":")

/-! ## Reading -/

/-- The error that a report makes of a text whose stream is known. -/
def Report.error (report : Report) (text : String) (stream : Stream) : ReadError :=
  let position := stream.positionOf report.offset
  { message := report.headline text position
    line := some (.ofNat position.line) }

/-- Read a text with the types of the core schema.  This is one reader among
others: it is used where texts are loaded, and loading does not depend on it. -/
def read : Reader := fun text =>
  let stream := Stream.ofText text
  let document := Document.ofStream (Text.units text) stream
  { content := document.content
    errors := document.reports.map fun report => report.error text stream
    lineAt := fun offset => .ofNat (stream.positionOf offset).line
    nodeText := Node.text
    plain := Node.plain }

/-- What is read this way is read plainly. -/
theorem readsPlainly_read (text : String) : (read text).ReadsPlainly Node.plainKey where
  aliased _ _ := rfl
  scalar _ _ _ := rfl
  sequence items start := by
    change Node.plain (.sequence items start) = .list (items.map Node.plain)
    rw [Node.plain, Node.plainItems_eq_map]
  mapping pairs start := by
    change Node.plain (.mapping pairs start) = .record (Record.ofEntries (pairs.map fun pair =>
      (pair.1.plainKey, (pair.2.map Node.plain).getD .null)))
    rw [Node.plain, Node.plainPairs_eq_map]

end IdlLinker.Yaml
