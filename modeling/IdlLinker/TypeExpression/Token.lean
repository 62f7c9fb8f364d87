import IdlLinker.Text.Blank
import IdlLinker.Text.Units
import IdlLinker.Name

/-!
# Tokens of a type expression

White space separates tokens and is otherwise skipped.  A token is a word (a
letter or underscore with all the letters, digits, underscores and dots that
follow) or a single sixteen-bit unit.  Columns count units from one.
-/

namespace IdlLinker.TypeExpression

/-- A token and the column it starts at. -/
structure Token where
  text : String
  column : Nat
  deriving DecidableEq, Repr

namespace Token

/-- A character that continues a word. -/
def isWordPart (character : Char) : Bool :=
  Name.isPart character || character == '.'

/-- The tokens of a text whose first character stands at a column. -/
def scan (column : Nat) : List Char → List Token
  | [] => []
  | character :: rest =>
    if Text.isBlank character then
      scan (column + Text.unitsOfChar character) rest
    else if Name.isStart character then
      let tail := rest.takeWhile isWordPart
      ⟨String.ofList (character :: tail), column⟩ ::
        scan (column + 1 + tail.length) (rest.dropWhile isWordPart)
    else if Text.unitsOfChar character = 1 then
      ⟨String.ofList [character], column⟩ :: scan (column + 1) rest
    else
      let half := String.ofList [Text.halfCharacter]
      ⟨half, column⟩ :: ⟨half, column + 1⟩ :: scan (column + 2) rest
termination_by characters => characters.length
decreasing_by
  · simp
  · have := (List.dropWhile_suffix isWordPart (l := rest)).length_le
    simp only [List.length_cons]
    omega
  · simp
  · simp

end Token

end IdlLinker.TypeExpression
