import IdlLinker.Text.Blank
import IdlLinker.Yaml.Lexeme
import IdlLinker.Yaml.Reported

/-!
# Tags and directives

A tag is written with a handle and a suffix; the handle stands for a text in
front of the suffix.  Directives declare handles for the document after them.
-/

namespace IdlLinker.Yaml

/-- The texts that tag handles stand for. -/
abbrev TagHandles := List (String × String)

namespace TagHandles

/-- The handles that are known without a declaration. -/
def initial : TagHandles := [("!!", "tag:yaml.org,2002:")]

/-- Declare a handle. -/
def declare (handles : TagHandles) (handle text : String) : TagHandles :=
  (handle, text) :: handles

/-- What a handle stands for. -/
def text? (handles : TagHandles) (handle : String) : Option String :=
  handles.lookup handle

end TagHandles

/-- The bytes of a text in which a byte may be written with a percent sign and
two hexadecimal digits. -/
def escapedBytes : List Char → List UInt8
  | '%' :: first :: second :: rest =>
    let digit (character : Char) : Nat :=
      if character.isDigit then character.toNat - '0'.toNat
      else character.toLower.toNat - 'a'.toNat + 10
    UInt8.ofNat (16 * digit first + digit second) :: escapedBytes rest
  | character :: rest => (String.singleton character).toUTF8.toList ++ escapedBytes rest
  | [] => []

/-- Read the percent signs of a text, unless they make up no characters. -/
def unescapeTag? (text : String) : Option String :=
  String.fromUTF8? (escapedBytes text.toList).toByteArray

/-- The name of a tag as it is written, if it has one.  The tag of a single
mark asks for a text. -/
def tagName (handles : TagHandles) (offset : Nat) (source : String) :
    Reported (Option String) :=
  match source.toList with
  | ['!'] => pure (some "!")
  | '!' :: '<' :: rest =>
    let verbatim := String.ofList rest.dropLast
    if verbatim == "!" || verbatim == "!!" then do
      report offset (.reservedVerbatim source)
      return none
    else do
      reportIf (rest.getLast? != some '>') offset .openVerbatim
      return some verbatim
  | characters =>
    let suffix := (characters.reverse.takeWhile (· != '!')).reverse
    let handle := String.ofList (characters.take (characters.length - suffix.length))
    let suffix := String.ofList suffix
    do
      reportIf suffix.isEmpty offset (.tagWithoutSuffix source)
      match handles.text? handle with
      | some text =>
        match unescapeTag? suffix with
        | some suffix => return some (text ++ suffix)
        | none =>
          report offset .malformedTagEscape
          return none
      | none =>
        if handle == "!" then return some source
        else
          report offset (.unknownTagHandle source)
          return none

/-- The words of a directive. -/
def directiveWords (text : String) : List String :=
  let characters := text.toList.dropWhile Text.isBlank
  let trimmed := (characters.reverse.dropWhile Text.isBlank).reverse
  let words := trimmed.foldr (fun character words =>
    if isInlineBlank character then [] :: words
    else
      match words with
      | [] => [[character]]
      | word :: rest => (character :: word) :: rest) [[]]
  (words.filter (!·.isEmpty)).map String.ofList

/-- Digits, a point and digits. -/
def isVersion (text : String) : Bool :=
  let rest := text.toList.dropWhile Char.isDigit
  text.toList.head?.any Char.isDigit &&
    match rest with
    | '.' :: more => !more.isEmpty && more.all Char.isDigit
    | _ => false

/-- Obey a directive; unknown ones are passed over. -/
def TagHandles.obey (handles : TagHandles) (directive : Token) : Reported TagHandles :=
  match directiveWords directive.text with
  | "%TAG" :: parts => do
    reportIf (parts.length != 2) directive.offset .tagDirectiveParts
    match parts with
    | handle :: text :: _ => return handles.declare handle text
    | _ => return handles
  | ["%YAML", version] => do
    let known := version == "1.1" || version == "1.2" || isVersion version
    reportIf (!known) (directive.offset + 6) (.unsupportedVersion version)
    return handles
  | "%YAML" :: _ => do
    report directive.offset .versionDirectiveParts
    return handles
  | _ => pure handles

end IdlLinker.Yaml
