import IdlLinker.Proofs.Members

/-!
# Default values

The default value of a field is the plain data of the node under its key.  No
line is put into it: where nodes are read plainly, a record in it has the keys
that its mapping writes.
-/

namespace IdlLinker.Load

open Yaml (Node Parsed)
open Shape

/-! ## Constants -/

mutual

/-- A constant is the data that it is made of, without the key that is left out. -/
theorem eq_trimmed_of_constant? : ∀ {data value : Value}, constant? data = some value →
    value = trimmed data
  | .null, _, constant => nomatch constant
  | .boolean _, _, constant => (Option.some.inj constant).symm
  | .number .nan, _, constant => nomatch constant
  | .number (.infinite _), _, constant => (Option.some.inj constant).symm
  | .number (.finite _), _, constant => (Option.some.inj constant).symm
  | .text _, _, constant => (Option.some.inj constant).symm
  | .other _, _, constant => nomatch constant
  | .list items, value, constant => by
      rw [constant?, Option.map_eq_some_iff] at constant
      rcases constant with ⟨values, inside, rfl⟩
      rw [trimmed, eq_trimmedItems_of_constantItems? inside]
  | .record entries, value, constant => by
      rw [constant?, Option.map_eq_some_iff] at constant
      rcases constant with ⟨kept, inside, rfl⟩
      rw [trimmed, eq_trimmedEntries_of_constantEntries? inside]

theorem eq_trimmedItems_of_constantItems? : ∀ {items values : List Value},
    constantItems? items = some values → values = trimmedItems items
  | [], _, constant => (Option.some.inj constant).symm
  | item :: rest, values, constant => by
      simp only [constantItems?, Option.bind_eq_bind, Option.bind_eq_some_iff, Option.pure_def,
        Option.some.injEq] at constant
      rcases constant with ⟨first, isFirst, others, areOthers, rfl⟩
      rw [trimmedItems, eq_trimmed_of_constant? isFirst,
        eq_trimmedItems_of_constantItems? areOthers]

theorem eq_trimmedEntries_of_constantEntries? : ∀ {entries kept : List (String × Value)},
    constantEntries? entries = some kept → kept = trimmedEntries entries
  | [], _, constant => (Option.some.inj constant).symm
  | (key, data) :: rest, kept, constant => by
      simp only [constantEntries?, Option.bind_eq_bind, Option.bind_eq_some_iff, Option.pure_def,
        Option.some.injEq] at constant
      rcases constant with ⟨first, isFirst, others, areOthers, rfl⟩
      rw [trimmedEntries, eq_trimmed_of_constant? isFirst,
        eq_trimmedEntries_of_constantEntries? areOthers]

end

/-! ## Plain data -/

theorem get?_trimmedEntries (entries : List (String × Value)) (key : String) :
    Record.get? (trimmedEntries entries) key =
      if key = droppedKey then none else (Record.get? entries key).map trimmed := by
  induction entries with
  | nil => simp [trimmedEntries, Record.get?]
  | cons entry rest hypothesis =>
      rcases entry with ⟨own, data⟩
      rw [trimmedEntries, Record.get?_cons]
      by_cases dropped : own = droppedKey
      · rw [if_pos dropped, hypothesis]
        by_cases same : key = droppedKey
        · rw [if_pos same, if_pos same]
        · rw [if_neg same, if_neg same, if_neg fun own' => same (own'.symm.trans dropped)]
      · rw [if_neg dropped, Record.get?_cons, hypothesis]
        by_cases same : own = key
        · rw [if_pos same, if_pos same, if_neg (same ▸ dropped), Option.map_some]
        · rw [if_neg same, if_neg same]

theorem exists_mem_of_lastPlain? {keyOf : Node → String} {pairs : List (Node × Option Node)}
    {key : String} {written : Node} (last : lastPlain? keyOf pairs key = some written) :
    ∃ own, (own, some written) ∈ pairs := by
  rcases Option.bind_eq_some_iff.mp last with ⟨⟨own, value⟩, found, rfl⟩
  exact ⟨own, List.mem_reverse.mp (List.mem_of_find?_eq_some found)⟩

section Plainly

variable {document : Parsed} {keyOf : Node → String}

/-- What is under a key of the plain data of a mapping is that of the last pair with
the key. -/
theorem get?_plainEntries (pairs : List (Node × Option Node)) (key : String) :
    Record.get? (Record.ofEntries (pairs.map fun pair =>
        (keyOf pair.1, (pair.2.map document.plain).getD .null))) key =
      (pairs.reverse.find? fun pair => keyOf pair.1 == key).map fun pair =>
        (pair.2.map document.plain).getD .null := by
  rw [Record.get?_ofEntries, ← List.map_reverse, Record.get?, List.find?_map, Option.map_map]
  rfl

theorem mem_keys_trimmedEntries (pairs : List (Node × Option Node)) (key : String) :
    key ∈ (trimmedEntries (Record.ofEntries (pairs.map fun pair =>
        (keyOf pair.1, (pair.2.map document.plain).getD .null)))).map (·.1) ↔
      key ≠ droppedKey ∧ ∃ pair ∈ pairs, keyOf pair.1 = key := by
  rw [← not_iff_not, ← Record.get?_eq_none_iff, get?_trimmedEntries, get?_plainEntries]
  by_cases dropped : key = droppedKey
  · simp [dropped]
  · simp [dropped]

mutual

/-- Where nodes are read plainly, what is kept of the data of a node is its plain
data. -/
theorem plainAt_trimmed (plainly : document.ReadsPlainly keyOf) :
    ∀ node : Node, PlainAt keyOf node (trimmed (document.plain node))
  | .aliased name start => by
      rw [plainly.aliased]
      exact PlainAt.aliased name start
  | .scalar content start => by
      by_cases own : ∀ object spelling, content ≠ .other object spelling
      · rw [plainly.scalar content start own]
        have kept : trimmed content.toValue = content.toValue := by
          cases content with
          | other object spelling => exact absurd rfl (own object spelling)
          | _ => rfl
        rw [kept]
        exact PlainAt.scalar content start own
      · simp only [not_forall, not_not] at own
        rcases own with ⟨object, spelling, rfl⟩
        exact PlainAt.other object spelling start _
  | .pair key written object => PlainAt.pair key written object _
  | .sequence items start => by
      rw [plainly.sequence, trimmed]
      exact PlainAt.sequence start (forall₂_plainAt_trimmed plainly items)
  | .mapping pairs start => by
      rw [plainly.mapping, trimmed]
      refine PlainAt.mapping start (mem_keys_trimmedEntries pairs) ?_
      intro key value written found last
      rcases exists_mem_of_lastPlain? last with ⟨own, member⟩
      rw [get?_trimmedEntries, get?_plainEntries] at found
      rcases Option.bind_eq_some_iff.mp last with ⟨⟨_, _⟩, isLast, rfl⟩
      rw [isLast] at found
      split at found
      · cases found
      · cases found
        exact plainAt_of_mem plainly member

theorem forall₂_plainAt_trimmed (plainly : document.ReadsPlainly keyOf) : ∀ items : List Node,
    List.Forall₂ (PlainAt keyOf) items (trimmedItems (items.map document.plain))
  | [] => List.Forall₂.nil
  | item :: rest =>
      List.Forall₂.cons (plainAt_trimmed plainly item) (forall₂_plainAt_trimmed plainly rest)

theorem plainAt_of_mem (plainly : document.ReadsPlainly keyOf) :
    ∀ {pairs : List (Node × Option Node)} {key written : Node},
      (key, some written) ∈ pairs → PlainAt keyOf written (trimmed (document.plain written))
  | [], _, _, member => nomatch member
  | (own, none) :: rest, key, written, member => by
      rcases List.mem_cons.mp member with same | later
      · cases same
      · exact plainAt_of_mem plainly later
  | (own, some node) :: rest, key, written, member => by
      rcases List.mem_cons.mp member with same | later
      · cases same
        exact plainAt_trimmed plainly node
      · exact plainAt_of_mem plainly later

end

end Plainly

/-! ## Default values -/

theorem defaultAt_of_check {document : Parsed} {path : String} {node : Node}
    {entries : List (String × Value)} (record : Recorded document path node entries)
    {default : Option Value}
    (accepted : optional constant (Record.get? entries "default") = .valid default) :
    DefaultAt document node default := by
  rcases optional_eq_valid_iff.mp accepted with ⟨absent, rfl⟩ | ⟨data, value, found, valid, rfl⟩
  · exact member?_of_none record absent
  · rcases constant_eq_valid_iff.mp valid with ⟨_, ⟨⟩, kept⟩
    rcases record.exists_pairs with ⟨pairs, start, rfl, gives⟩
    rw [gives, if_neg (by decide), Option.or_none, Option.map_eq_some_iff] at found
    rcases found with ⟨⟨own, _ | written⟩, last, rfl⟩
    · cases kept
    · refine ⟨written, ?_, eq_trimmed_of_constant? kept⟩
      change (document.lastPair? pairs "default").bind _ = some written
      rw [last]
      rfl

end IdlLinker.Load
