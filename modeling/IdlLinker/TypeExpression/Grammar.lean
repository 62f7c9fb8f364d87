import IdlLinker.Name
import IdlLinker.Text.Blank
import IdlLinker.TypeExpression

/-!
# The grammar of type expressions

A type is written as a sequence of words: a name, or `map`, `list` or `set`
with its parts between angle brackets.  The words stand one after another, with
any blank characters before, between and after them.
-/

namespace IdlLinker

/-- An identifier, or two of them joined by a dot. -/
def Name.Qualified (name : String) : Prop :=
  isIdentifier name = true ∨
    ∃ first second, isIdentifier first = true ∧ isIdentifier second = true ∧
      name = first ++ "." ++ second

/-- Words with blank characters before, between and after them. -/
inductive Text.Spread : List String → List Char → Prop
  | done : Spread [] []
  | blank {words : List String} {character : Char} {rest : List Char}
      (blank : isBlank character = true) (others : Spread words rest) :
      Spread words (character :: rest)
  | word (word : String) {words : List String} {rest : List Char} (others : Spread words rest) :
      Spread (word :: words) (word.toList ++ rest)

namespace TypeExpression

/-- The words that begin a type with parts. -/
def containerWords : List String := ["map", "list", "set"]

/-- A name that can be given to a type: it is neither a base type nor the
beginning of a type with parts. -/
structure IsTypeName (name : String) : Prop where
  qualified : Name.Qualified name
  notBase : ∀ base : BaseType, base.name ≠ name
  notContainer : name ∉ containerWords

/-- Every name in a type can be given to a type. -/
def WellFormed : TypeExpression → Prop
  | base _ _ => True
  | named name _ => IsTypeName name
  | map key value _ => key.WellFormed ∧ value.WellFormed
  | list value _ => value.WellFormed
  | set value _ => value.WellFormed

/-- The same type with every node on one line. -/
def atLine (line : Number) : TypeExpression → TypeExpression
  | base type _ => base type line
  | named name _ => named name line
  | map key value _ => map (key.atLine line) (value.atLine line) line
  | list value _ => list (value.atLine line) line
  | set value _ => set (value.atLine line) line

/-- Every node of a type is on one line. -/
def OnLine (line : Number) : TypeExpression → Prop
  | base _ own => own = line
  | named _ own => own = line
  | map key value own => key.OnLine line ∧ value.OnLine line ∧ own = line
  | list value own => value.OnLine line ∧ own = line
  | set value own => value.OnLine line ∧ own = line

/-- The words of a type, in order. -/
def words : TypeExpression → List String
  | base type _ => [type.name]
  | named name _ => [name]
  | map key value _ => "map" :: "<" :: (key.words ++ "," :: (value.words ++ [">"]))
  | list value _ => "list" :: "<" :: (value.words ++ [">"])
  | set value _ => "set" :: "<" :: (value.words ++ [">"])

/-- A type written without blanks. -/
def text : TypeExpression → String
  | base type _ => type.name
  | named name _ => name
  | map key value _ => "map<" ++ key.text ++ "," ++ value.text ++ ">"
  | list value _ => "list<" ++ value.text ++ ">"
  | set value _ => "set<" ++ value.text ++ ">"

end TypeExpression

end IdlLinker
