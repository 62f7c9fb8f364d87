import IdlLinker.Load.Nodes

/-!
# Aliases of a document

An alias stands for the node that has its anchor.  Documents of definitions are
not to have any: an alias is reported at its path, unless it is hidden in what
is passed on as it is, a default value or a pair that is an item.
-/

namespace IdlLinker.Load

open Yaml (Node Parsed)

/-- An alias that is a value or an item: its name, its path and the line on which
it starts, and whether it is hidden in a default value or in a pair. -/
structure AliasUse where
  name : String
  path : String
  line : Option Number
  hidden : Bool
  deriving DecidableEq

section Aliases

variable (document : Parsed)

mutual

/-- The aliases in a node. -/
def aliases (path : String) (hidden : Bool) : Node → List AliasUse
  | .aliased name start => [⟨name, path, start.map document.lineAt, hidden⟩]
  | .scalar _ _ => []
  | .mapping pairs _ => pairAliases path hidden pairs
  | .sequence items _ => itemAliases path hidden 0 items
  | .pair _ none _ => []
  | .pair key (some value) _ => aliases (pathOf path (document.keyText key)) true value

/-- The aliases in the values of a mapping. -/
def pairAliases (path : String) (hidden : Bool) : List (Node × Option Node) → List AliasUse
  | [] => []
  | (_, none) :: rest => pairAliases path hidden rest
  | (key, some value) :: rest =>
    aliases (pathOf path (document.keyText key))
        (hidden || document.keyText key == defaultKey) value ++
      pairAliases path hidden rest

/-- The aliases in the items of a sequence, from a position on. -/
def itemAliases (path : String) (hidden : Bool) : (position : Nat) → List Node → List AliasUse
  | _, [] => []
  | position, item :: rest =>
    aliases (pathOf path (toString position)) hidden item ++
      itemAliases path hidden (position + 1) rest

end

/-- The aliases of a document. -/
def documentAliases : List AliasUse :=
  match document.content with
  | some content => aliases document "document" false content
  | none => []

/-- The names of aliases have no blanks. -/
def NamesUnspaced : Prop := ∀ use ∈ documentAliases document, ' ' ∉ use.name.toList

instance : Decidable (NamesUnspaced document) :=
  inferInstanceAs (Decidable (∀ use ∈ documentAliases document, ' ' ∉ use.name.toList))

end Aliases

/-- The warning that diagnostics were left out is among the diagnostics. -/
def Outcome.Truncated (outcome : Outcome) : Prop :=
  ∃ count, Diagnostic.truncated count ∈ outcome.diagnostics

/-- There are no definitions, and unless diagnostics were left out one of them
is about an alias at the path of this one. -/
structure Outcome.Refuses (outcome : Outcome) (use : AliasUse) : Prop where
  definitions : outcome.definitions = none
  reported : ¬ outcome.Truncated → ∃ diagnostic ∈ outcome.diagnostics,
    diagnostic.code = "IDL_DOC_ALIAS_UNSUPPORTED" ∧ diagnostic.path = use.path

end IdlLinker.Load
