import IdlLinker.Load.Nodes

/-!
# Mappings of a document

The mappings of a document are found in its values and its items.  Those in
default values are left out: they are plain data.  A value counts for nothing
where its key is given again later in the same mapping.
-/

namespace IdlLinker.Load

open Yaml (Node Parsed)

/-- A node is a mapping. -/
def isMapping : Node → Bool
  | .mapping _ _ => true
  | _ => false

section Mappings

variable (document : Parsed)

/-- A value under a key counts for nothing: it is a default value, or one of the
pairs behind it has the same key. -/
def isPassedOver (key : Node) (rest : List (Node × Option Node)) : Bool :=
  document.keyText key == defaultKey ||
    rest.any fun pair => document.keyText pair.1 == document.keyText key

mutual

/-- The mappings in a node outside of default values, each before those in it. -/
def mappings : Node → List Node
  | .aliased _ _ => []
  | .scalar _ _ => []
  | .mapping pairs start => .mapping pairs start :: pairMappings pairs
  | .sequence items _ => itemMappings items
  | .pair _ none _ => []
  | .pair _ (some value) _ => mappings value

/-- The mappings in the values of a mapping. -/
def pairMappings : List (Node × Option Node) → List Node
  | [] => []
  | (_, none) :: rest => pairMappings rest
  | (key, some value) :: rest =>
    (if isPassedOver document key rest then [] else mappings value) ++ pairMappings rest

/-- The mappings in the items of a sequence. -/
def itemMappings : List Node → List Node
  | [] => []
  | item :: rest => mappings item ++ itemMappings rest

end

theorem itemMappings_eq_flatMap (items : List Node) :
    itemMappings document items = items.flatMap (mappings document) := by
  induction items with
  | nil => rfl
  | cons item rest hypothesis => rw [itemMappings, List.flatMap_cons, hypothesis]

/-- The mappings of a document outside of default values. -/
def documentMappings : List Node := document.content.toList.flatMap (mappings document)

end Mappings

end IdlLinker.Load
