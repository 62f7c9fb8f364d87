import IdlLinker.Text.Lines
import IdlLinker.Yaml.Lexeme
import IdlLinker.Yaml.Reported

/-!
# Plain and quoted scalars

The text of a plain, single-quoted or double-quoted scalar.  Line ends are
folded: the blanks around a line end go, a single line end is a space, and
each further one is kept.  Escapes in double quotes give sixteen-bit units, so
that two of them can make up one character.
-/

namespace IdlLinker.Yaml

open Text (units unitsOfChar unitsOfChars)

/-! ## Folding -/

/-- Drop the blanks at the start of a line. -/
def trimStart (line : List Char) : List Char := line.dropWhile isInlineBlank

/-- Drop the blanks at the end of a line. -/
def trimEnd (line : List Char) : List Char :=
  (line.reverse.dropWhile isInlineBlank).reverse

/-- Drop the carriage return in front of a line end. -/
def dropReturn (line : List Char) : List Char :=
  if line.getLast? = some '\r' then line.dropLast else line

/-- Join the lines after the first one; `separator` stands for the line ends
since the last line that was not blank. -/
def foldRest (separator : List Char) : List (List Char) → List Char
  | [] => []
  | [last] => separator ++ trimStart last
  | line :: rest =>
    match trimEnd (trimStart (dropReturn line)) with
    | [] =>
      if separator = ['\n'] then separator ++ foldRest separator rest
      else foldRest ['\n'] rest
    | content => separator ++ content ++ foldRest [' '] rest

/-- A text with its line ends folded. -/
def foldLines (characters : List Char) : List Char :=
  match Text.lines characters with
  | first :: second :: rest => trimEnd (dropReturn first) ++ foldRest [' '] (second :: rest)
  | _ => characters

/-! ## Plain and single-quoted scalars -/

/-- What is wrong with the first character of a plain scalar. -/
def reservedStart? : Char → Option String
  | '\t' => some "a tab character"
  | ',' => some "flow indicator character ,"
  | '%' => some "directive indicator character %"
  | '|' => some "block scalar indicator |"
  | '>' => some "block scalar indicator >"
  | '@' => some "reserved character @"
  | '\x60' => some "reserved character \x60"
  | _ => none

/-- The text of a plain scalar. -/
def plainText (offset : Nat) (source : String) : Reported String := do
  match source.toList.head?.bind reservedStart? with
  | some character => report offset (.reservedStart character)
  | none => pure ()
  return String.ofList (foldLines source.toList)

/-- Write a doubled quote once. -/
def undoubleQuotes : List Char → List Char
  | '\'' :: '\'' :: rest => '\'' :: undoubleQuotes rest
  | character :: rest => character :: undoubleQuotes rest
  | [] => []

/-- The source of a scalar ends with a quote that is not the first one. -/
def isClosedBy (quote : Char) (source : String) : Bool :=
  decide (1 < source.length) && source.toList.getLast? == some quote

/-- The text of a single-quoted scalar. -/
def singleQuotedText (offset : Nat) (source : String) : Reported String := do
  reportIf (!isClosedBy '\'' source) (offset + units source) (.unclosedQuote "'")
  return String.ofList (undoubleQuotes (foldLines source.toList.tail.dropLast))

/-! ## Double-quoted scalars -/

/-- The character of an escape of one character. -/
def escape? : Char → Option Char
  | '0' => some '\x00'
  | 'a' => some '\x07'
  | 'b' => some '\x08'
  | 'e' => some '\x1b'
  | 'f' => some '\x0c'
  | 'n' => some '\n'
  | 'r' => some '\r'
  | 't' => some '\t'
  | 'v' => some '\x0b'
  | 'N' => some '\u0085'
  | '_' => some '\u00a0'
  | 'L' => some '\u2028'
  | 'P' => some '\u2029'
  | ' ' => some ' '
  | '"' => some '"'
  | '/' => some '/'
  | '\\' => some '\\'
  | '\t' => some '\t'
  | _ => none

/-- The number of digits of an escape by code. -/
def codeLength? : Char → Option Nat
  | 'x' => some 2
  | 'u' => some 4
  | 'U' => some 8
  | _ => none

/-- The units of a code, if there is such a code. -/
def unitsOfCode? (code : Nat) : Option (List Nat) :=
  if code < 0x10000 then some [code]
  else if code ≤ 0x10ffff then some (Text.toUnits (Char.ofNat code))
  else none

/-- The units of a code written in hexadecimal digits. -/
def unitsOfDigits? (length : Nat) (digits : List Char) : Option (List Nat) :=
  if digits.length = length && digits.all isHexDigit then
    unitsOfCode? (digits.foldl (fun code digit =>
      16 * code + (if digit.isDigit then digit.toNat - '0'.toNat
        else digit.toLower.toNat - 'a'.toNat + 10)) 0)
  else none

/-- The first units of a text as characters. -/
def takeUnits (count : Nat) (characters : List Char) : String :=
  String.ofList (Text.ofUnits ((characters.flatMap Text.toUnits).take count))

/-- Drop characters until a number of units is dropped. -/
def dropUnits : (count : Nat) → List Char → List Char
  | 0, rest => rest
  | _, [] => []
  | count, character :: rest => dropUnits (count - unitsOfChar character) rest
termination_by _ characters => characters.length

theorem length_dropUnits_le (count : Nat) (characters : List Char) :
    (dropUnits count characters).length ≤ characters.length := by
  induction characters generalizing count with
  | nil => cases count <;> simp [dropUnits]
  | cons character rest hypothesis =>
    cases count with
    | zero => simp [dropUnits]
    | succ count =>
      have := hypothesis (count + 1 - unitsOfChar character)
      simp only [dropUnits, List.length_cons]
      omega

theorem length_dropWhile_le (test : Char → Bool) (characters : List Char) :
    (characters.dropWhile test).length ≤ characters.length :=
  (List.dropWhile_suffix test).length_le

/-- The line ends and blanks at the start of a text: how many line feeds are
among them, and what follows. -/
def skipFold : List Char → Nat × List Char
  | ' ' :: rest => skipFold rest
  | '\t' :: rest => skipFold rest
  | '\n' :: rest => let (feeds, rest) := skipFold rest; (feeds + 1, rest)
  | '\r' :: '\n' :: rest => let (feeds, rest) := skipFold rest; (feeds + 1, rest)
  | rest => (0, rest)

theorem length_skipFold_le (characters : List Char) :
    (skipFold characters).2.length ≤ characters.length := by
  fun_induction skipFold characters <;> simp_all <;> omega

/-- A line end stands at the start. -/
def startsWithLineEnd : List Char → Bool
  | '\n' :: _ => true
  | '\r' :: '\n' :: _ => true
  | _ => false

/-- Drop the line feed, or the carriage return and the line feed, at the start. -/
def dropLineEnd : List Char → List Char
  | '\n' :: rest => rest
  | '\r' :: '\n' :: rest => rest
  | rest => rest

theorem length_dropLineEnd_le (characters : List Char) :
    (dropLineEnd characters).length ≤ characters.length := by
  fun_cases dropLineEnd characters
  · simp
  · simp only [List.length_cons]
    omega
  · exact Nat.le_refl _

theorem length_dropLineEnd_lt {characters : List Char}
    (lineEnd : startsWithLineEnd characters = true) :
    (dropLineEnd characters).length < characters.length := by
  fun_cases dropLineEnd characters
  · simp
  · simp only [List.length_cons]
    omega
  · simp_all [startsWithLineEnd]

/-- The units of the inside of double quotes.  The last character of the
source is the closing quote, so a single character that is left is not read.
The offset of a character is counted back from the end of the source. -/
def doubleQuotedUnits (stop : Nat) (characters : List Char) : Reported (List Nat) :=
  match characters with
  | [] => pure []
  | [_] => pure []
  | character :: next :: rest =>
    if _lineEnd : startsWithLineEnd (character :: next :: rest) then
      let folded := skipFold (dropLineEnd (character :: next :: rest))
      do
        let others ← doubleQuotedUnits stop folded.2
        return (if folded.1 = 0 then [' '.toNat] else List.replicate folded.1 '\n'.toNat) ++ others
    else if character = '\\' then
      match escape? next with
      | some escaped => do return escaped.toNat :: (← doubleQuotedUnits stop rest)
      | none =>
        if startsWithLineEnd (next :: rest) then
          doubleQuotedUnits stop ((dropLineEnd (next :: rest)).dropWhile isInlineBlank)
        else
          match codeLength? next with
          | some length =>
            let others := doubleQuotedUnits stop (dropUnits length rest)
            match unitsOfDigits? length (rest.take length) with
            | some code => do return code ++ (← others)
            | none => do
              report (stop - unitsOfChars (character :: next :: rest))
                (.invalidEscape (String.ofList [character, next] ++ takeUnits length rest))
              others
          | none => do
            report (stop - unitsOfChars (character :: next :: rest))
              (.invalidEscape (takeUnits 2 (character :: next :: rest)))
            doubleQuotedUnits stop rest
    else if isInlineBlank character then
      let blanks := character :: (next :: rest).takeWhile isInlineBlank
      let after := (next :: rest).dropWhile isInlineBlank
      do
        let others ← doubleQuotedUnits stop after
        return (if startsWithLineEnd after then [] else blanks.map Char.toNat) ++ others
    else do
      return Text.toUnits character ++ (← doubleQuotedUnits stop (next :: rest))
termination_by characters.length
decreasing_by
  · have fold := length_skipFold_le (dropLineEnd (character :: next :: rest))
    have feed := length_dropLineEnd_lt _lineEnd
    omega
  · simp only [List.length_cons]
    omega
  · have blanks := length_dropWhile_le isInlineBlank (dropLineEnd (next :: rest))
    have feed := length_dropLineEnd_le (next :: rest)
    simp only [List.length_cons] at *
    omega
  · have dropped := length_dropUnits_le length rest
    simp only [List.length_cons]
    omega
  · simp only [List.length_cons]
    omega
  · have blanks := length_dropWhile_le isInlineBlank (next :: rest)
    simp only [List.length_cons] at *
    omega
  · simp only [List.length_cons]
    omega

/-- The text of a double-quoted scalar. -/
def doubleQuotedText (offset : Nat) (source : String) : Reported String := do
  let content ← doubleQuotedUnits (offset + units source) source.toList.tail
  reportIf (!isClosedBy '"' source) (offset + units source) (.unclosedQuote "\"")
  return String.ofList (Text.ofUnits content)

end IdlLinker.Yaml
