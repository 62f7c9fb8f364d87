import IdlLinker.TypeExpression
import IdlLinker.TypeExpression.Token

/-!
# Reading a type expression

The grammar is `map<K, V>`, `list<T>`, `set<T>` or a name, where a name is an
identifier or two of them joined by a dot and the base type names stand for
base types.  A text is rejected at the first token that no type expression
could have there, or at its end when more is needed.
-/

namespace IdlLinker.TypeExpression

/-- What was wrong with a written type. -/
inductive Fault
  /-- The text ended where a type was needed. -/
  | typeNeeded
  /-- The text ended where punctuation was needed. -/
  | needed (punctuation : String)
  /-- Another token stands where punctuation was needed. -/
  | neededBefore (punctuation found : String)
  /-- A token that can neither begin a type nor follow one. -/
  | unexpected (found : String)
  deriving DecidableEq, Repr

/-- What a fault says. -/
def Fault.message : Fault → String
  | .typeNeeded => "expected a type"
  | .needed punctuation => "expected \"" ++ punctuation ++ "\""
  | .neededBefore punctuation found =>
    "expected \"" ++ punctuation ++ "\" but found \"" ++ found ++ "\""
  | .unexpected found => "unexpected \"" ++ found ++ "\""

/-- A rejected text: the fault and the column it was found at. -/
structure Rejection where
  expression : String
  column : Nat
  fault : Fault
  deriving DecidableEq, Repr

/-- The text of a rejection. -/
def Rejection.message (rejection : Rejection) : String :=
  "invalid type \"" ++ rejection.expression ++ "\" at column " ++
    toString rejection.column ++ ": " ++ rejection.fault.message

/-- A fault at a token, or at the end of the text where there is none. -/
abbrev Misplaced := Option Nat × Fault

/-- Take one punctuation token off the front. -/
def takePunctuation (punctuation : String) :
    List Token → Except Misplaced (List Token)
  | [] => .error (none, .needed punctuation)
  | token :: rest =>
    if token.text = punctuation then .ok rest
    else .error (some token.column, .neededBefore punctuation token.text)

/-- Read one type off the front of the tokens.  Each nested type has lost a
token to the word around it, so `depth` need not exceed their number. -/
def parseTokens (line : Number) :
    (depth : Nat) → List Token → Except Misplaced (TypeExpression × List Token)
  | _, [] => .error (none, .typeNeeded)
  | 0, token :: _ => .error (some token.column, .unexpected token.text)
  | depth + 1, token :: rest =>
    if token.text = "map" then do
      let rest ← takePunctuation "<" rest
      let (key, rest) ← parseTokens line depth rest
      let rest ← takePunctuation "," rest
      let (value, rest) ← parseTokens line depth rest
      let rest ← takePunctuation ">" rest
      return (.map key value line, rest)
    else if token.text = "list" then do
      let rest ← takePunctuation "<" rest
      let (value, rest) ← parseTokens line depth rest
      let rest ← takePunctuation ">" rest
      return (.list value line, rest)
    else if token.text = "set" then do
      let rest ← takePunctuation "<" rest
      let (value, rest) ← parseTokens line depth rest
      let rest ← takePunctuation ">" rest
      return (.set value line, rest)
    else if Name.isQualified token.text then
      match BaseType.ofName? token.text with
      | some type => .ok (.base type line, rest)
      | none => .ok (.named token.text line, rest)
    else .error (some token.column, .unexpected token.text)

/-- Read all the tokens as one type. -/
def parseAll (line : Number) (tokens : List Token) :
    Except Misplaced TypeExpression := do
  let (type, rest) ← parseTokens line tokens.length tokens
  match rest with
  | [] => return type
  | token :: _ => throw (some token.column, .unexpected token.text)

/-- Read a written type; every node carries the given line. -/
def parse (expression : String) (line : Number) :
    Except Rejection TypeExpression :=
  match parseAll line (Token.scan 1 expression.toList) with
  | .ok type => .ok type
  | .error (column, fault) =>
    .error ⟨expression, column.getD (Text.units expression + 1), fault⟩

end IdlLinker.TypeExpression
