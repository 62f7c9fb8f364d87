import IdlLinker.Load.Aliases

/-!
# What locating data notes

Locating the data of a node visits everything outside of keys, default values
and pairs that are items, and notes the aliases there in their order and nothing
else.
-/

namespace IdlLinker.Load

open Yaml (Node Parsed)

/-- The report of an alias. -/
def AliasUse.report (use : AliasUse) : Diagnostic :=
  unsupportedAlias use.path use.name use.line

/-- The aliases that are not hidden. -/
def exposed (uses : List AliasUse) : List AliasUse := uses.filter fun use => !use.hidden

variable (document : Parsed)

mutual

theorem exposed_aliases_hidden (path : String) :
    ∀ node : Node, exposed (aliases document path true node) = []
  | .aliased _ _ => rfl
  | .scalar _ _ => rfl
  | .mapping pairs _ => by
      rw [aliases]
      exact exposed_pairAliases_hidden path pairs
  | .sequence items _ => by
      rw [aliases]
      exact exposed_itemAliases_hidden path 0 items
  | .pair _ none _ => rfl
  | .pair key (some value) _ => by
      rw [aliases]
      exact exposed_aliases_hidden (pathOf path (document.keyText key)) value

theorem exposed_pairAliases_hidden (path : String) :
    ∀ pairs : List (Node × Option Node), exposed (pairAliases document path true pairs) = []
  | [] => rfl
  | (_, none) :: rest => exposed_pairAliases_hidden path rest
  | (key, some value) :: rest => by
      have first := exposed_aliases_hidden (pathOf path (document.keyText key)) value
      have others := exposed_pairAliases_hidden path rest
      rw [exposed] at first others ⊢
      rw [pairAliases, List.filter_append, Bool.true_or, first, others, List.append_nil]

theorem exposed_itemAliases_hidden (path : String) : ∀ (position : Nat) (items : List Node),
    exposed (itemAliases document path true position items) = []
  | _, [] => rfl
  | position, item :: rest => by
      have first := exposed_aliases_hidden (pathOf path (toString position)) item
      have others := exposed_itemAliases_hidden path (position + 1) rest
      rw [exposed] at first others ⊢
      rw [itemAliases, List.filter_append, first, others, List.append_nil]

end

mutual

/-- Locating data notes every alias that is not hidden, and nothing else. -/
theorem notes_located (path : String) : ∀ node : Node,
    (located document path node).notes =
      (exposed (aliases document path false node)).map AliasUse.report
  | .aliased _ _ => rfl
  | .scalar _ _ => rfl
  | .mapping pairs _ => by
      rw [aliases, ← notes_locatedPairs path pairs]
      simp [located]
  | .sequence items _ => by
      rw [aliases, ← notes_locatedItems path 0 items]
      simp [located]
  | .pair _ none _ => rfl
  | .pair key (some value) _ => by
      rw [aliases, exposed_aliases_hidden]
      rfl

theorem notes_locatedPairs (path : String) : ∀ pairs : List (Node × Option Node),
    (locatedPairs document path pairs).notes =
      (exposed (pairAliases document path false pairs)).map AliasUse.report
  | [] => rfl
  | (_, none) :: rest => by
      rw [pairAliases, ← notes_locatedPairs path rest]
      simp [locatedPairs]
  | (key, some value) :: rest => by
      have others := notes_locatedPairs path rest
      have first := notes_located (pathOf path (document.keyText key)) value
      rw [pairAliases, Bool.false_or, exposed, List.filter_append, List.map_append, ← exposed,
        ← exposed, ← others, locatedPairs]
      by_cases plain : document.keyText key = defaultKey
      · rw [beq_iff_eq.mpr plain, exposed_aliases_hidden, if_pos plain]
        simp
      · rw [beq_eq_false_iff_ne.mpr plain, ← first, if_neg plain]
        simp

theorem notes_locatedItems (path : String) : ∀ (position : Nat) (items : List Node),
    (locatedItems document path position items).notes =
      (exposed (itemAliases document path false position items)).map AliasUse.report
  | _, [] => rfl
  | position, item :: rest => by
      have others := notes_locatedItems path (position + 1) rest
      have first := notes_located (pathOf path (toString position)) item
      rw [itemAliases, exposed, List.filter_append, List.map_append, ← exposed, ← exposed,
        ← others, ← first]
      -- A bare text is not located at all, wherever it stands.
      by_cases bare : ∃ name start, item = .scalar (.text name) start
      · rcases bare with ⟨name, start, rfl⟩
        simp [locatedItems, located]
      · rw [locatedItems.eq_3 _ _ _ _ _ fun name start same => bare ⟨name, start, same⟩]
        simp

end

end IdlLinker.Load
