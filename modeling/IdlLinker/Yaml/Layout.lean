import IdlLinker.Yaml.Fault

/-!
# Layout trees

A layout tree is a document with all its tokens in place: which node each
scalar and each collection belongs to, with the spaces, comments, indicators,
anchors and tags around it.  What the tokens mean, and which of them are
mistakes, is decided when nodes are made of the tree.
-/

namespace IdlLinker.Yaml

/-- The forms of a scalar on its own, and aliases. -/
inductive ScalarForm
  | aliased
  | plain
  | singleQuoted
  | doubleQuoted
  deriving DecidableEq, Repr

/-- The form of a scalar token. -/
def ScalarForm.ofKind? : TokenKind → Option ScalarForm
  | .aliased => some .aliased
  | .scalar => some .plain
  | .singleQuoted => some .singleQuoted
  | .doubleQuoted => some .doubleQuoted
  | _ => none

/-- An item of a collection.  `start` is what stands in front of the key or of
the sole value; `separator` is what stands between key and value, and is there
once the key is complete. -/
structure Entry (Node : Type) where
  start : List Token := []
  explicitKey : Bool := false
  key : Option Node := none
  separator : Option (List Token) := none
  value : Option Node := none

/-- A node with its tokens.  The ending of a scalar and the closing of a flow
collection are the tokens after it up to the end of its line.  A misplaced
token stands where a node was expected. -/
inductive Layout
  | scalar (form : ScalarForm) (offset indent : Nat) (text : String)
      (ending : Option (List Token))
  | blockScalar (offset indent : Nat) (header : List Token) (text : String)
  | blockMap (offset indent : Nat) (entries : List (Entry Layout))
  | blockSequence (offset indent : Nat) (entries : List (Entry Layout))
  | flow (offset indent : Nat) (opening : Token) (entries : List (Entry Layout))
      (closing : List Token)
  | misplaced (token : Token) (fault : Fault)

namespace Layout

/-- The offset at which a node starts. -/
def offset : Layout → Nat
  | scalar _ offset .. => offset
  | blockScalar offset .. => offset
  | blockMap offset .. => offset
  | blockSequence offset .. => offset
  | flow offset .. => offset
  | misplaced token _ => token.offset

/-- The indentation of a node, if it has one. -/
def indent? : Layout → Option Nat
  | scalar _ _ indent .. => some indent
  | blockScalar _ indent .. => some indent
  | blockMap _ indent _ => some indent
  | blockSequence _ indent _ => some indent
  | flow _ indent .. => some indent
  | misplaced .. => none

/-- Scalars, aliases and flow collections. -/
def isFlow : Layout → Bool
  | scalar .. => true
  | flow .. => true
  | _ => false

/-- Block collections. -/
def isBlockCollection : Layout → Bool
  | blockMap .. => true
  | blockSequence .. => true
  | _ => false

/-- The tokens after a node on its line, if it keeps them. -/
def ending? : Layout → Option (List Token)
  | scalar _ _ _ _ ending => ending
  | flow _ _ _ _ closing => some closing
  | _ => none

/-- Add tokens to the ones after a node. -/
def addEnding (layout : Layout) (tokens : List Token) : Layout :=
  match layout with
  | scalar form offset indent text ending =>
    scalar form offset indent text (some (ending.getD [] ++ tokens))
  | flow offset indent opening entries closing =>
    flow offset indent opening entries (closing ++ tokens)
  | other => other

/-- The first character of the text of a scalar. -/
def firstCharacter? : Layout → Option Char
  | scalar _ _ _ text _ => text.toList.head?
  | blockScalar _ _ _ text => text.toList.head?
  | misplaced token _ => token.text.toList.head?
  | _ => none

mutual

/-- A key that is not on a single line. -/
def spansLines : Layout → Bool
  | scalar _ _ _ text ending => text.contains '\n' || includes (ending.getD []) .newline
  | flow _ _ _ entries _ => entriesSpanLines entries
  | _ => true

/-- One of the entries of a flow collection is not on a single line. -/
def entriesSpanLines : List (Entry Layout) → Bool
  | [] => false
  | ⟨start, _, key, separator, value⟩ :: rest =>
    let keySpans := match key with
      | some key => spansLines key
      | none => false
    let valueSpans := match value with
      | some value => spansLines value
      | none => false
    includes start .newline || includes (separator.getD []) .newline ||
      keySpans || valueSpans || entriesSpanLines rest

end

end Layout

end IdlLinker.Yaml
