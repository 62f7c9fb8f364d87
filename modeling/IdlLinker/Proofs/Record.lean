import IdlLinker.Scope

/-!
# Looking up what was put

A record answers with the value put last under a key, and holds no entry that
was not put there.  So a table of objects registers each of its names for an
object of that name.
-/

namespace IdlLinker

namespace Record

variable {α : Type} {entries : List (String × α)} {key other : String} {value : α}

theorem mem_of_get? (found : get? entries key = some value) : (key, value) ∈ entries := by
  rcases Option.map_eq_some_iff.mp found with ⟨entry, held, rfl⟩
  have same : entry.1 = key := by simpa using List.find?_some held
  have member := List.mem_of_find?_eq_some held
  rwa [← same]

/-- Where keys are distinct, a record answers with each of its entries. -/
theorem get?_eq_some_iff (distinct : (entries.map (·.1)).Nodup) :
    get? entries key = some value ↔ (key, value) ∈ entries := by
  refine ⟨mem_of_get?, fun member => ?_⟩
  induction entries with
  | nil => cases member
  | cons first rest hypothesis =>
      simp only [List.map_cons, List.nodup_cons] at distinct
      rcases List.mem_cons.mp member with rfl | later
      · simp [get?]
      · have different : ¬ first.1 = key := by
          rintro rfl
          exact distinct.1 (List.mem_map.mpr ⟨_, later, rfl⟩)
        have others := hypothesis distinct.2 later
        rw [get?, List.find?_cons_of_neg (by simpa using different)]
        exact others

/-- A key that is not there is put at the end. -/
theorem put_of_not_mem (absent : key ∉ entries.map (·.1)) :
    put entries key value = entries ++ [(key, value)] := by
  rw [put, if_neg]
  intro found
  rcases List.any_eq_true.mp found with ⟨entry, member, same⟩
  exact absent (List.mem_map.mpr ⟨entry, member, by simpa using same⟩)

theorem mem_put {entry : String × α} (member : entry ∈ put entries key value) :
    entry ∈ entries ∨ entry = (key, value) := by
  unfold put at member
  split at member
  · rcases List.mem_map.mp member with ⟨old, oldMember, rfl⟩
    split
    · exact Or.inr rfl
    · exact Or.inl oldMember
  · simpa using member

@[simp]
theorem mem_insertIndexed {entry new : String × α} :
    entry ∈ insertIndexed new entries ↔ entry = new ∨ entry ∈ entries := by
  induction entries with
  | nil => simp [insertIndexed]
  | cons first rest hypothesis =>
      simp only [insertIndexed]
      split
      · simp
      · simp only [List.mem_cons, hypothesis]
        exact or_left_comm

@[simp]
theorem mem_foldr_insertIndexed {entry : String × α} :
    entry ∈ entries.foldr insertIndexed [] ↔ entry ∈ entries := by
  induction entries with
  | nil => simp
  | cons first rest hypothesis => simp [hypothesis]

/-- Arranging entries keeps each of them. -/
@[simp]
theorem mem_arrange {entry : String × α} : entry ∈ arrange entries ↔ entry ∈ entries := by
  rw [arrange, List.mem_append, mem_foldr_insertIndexed, List.mem_filter, List.mem_filter]
  cases indexOf? entry.1 <;> simp

theorem mem_foldl_put {made given : List (String × α)} {entry : String × α}
    (member : entry ∈ given.foldl (fun made entry => put made entry.1 entry.2) made) :
    entry ∈ made ∨ entry ∈ given := by
  induction given generalizing made with
  | nil => exact Or.inl member
  | cons first rest hypothesis =>
      rcases hypothesis member with early | late
      · rcases mem_put early with old | same
        · exact Or.inl old
        · exact Or.inr (by simp [same])
      · exact Or.inr (List.mem_cons_of_mem _ late)

/-- A record holds only what it was made of. -/
theorem mem_of_mem_ofEntries {entry : String × α} (member : entry ∈ ofEntries entries) :
    entry ∈ entries := by
  rcases mem_foldl_put (mem_arrange.mp member) with nothing | given
  · cases nothing
  · exact given

theorem get?_cons (first : String × α) (rest : List (String × α)) :
    get? (first :: rest) key = if first.1 = key then some first.2 else get? rest key := by
  by_cases same : first.1 = key
  · simp [get?, same]
  · simp [get?, same, List.find?_cons_of_neg]

theorem get?_append (entries others : List (String × α)) :
    get? (entries ++ others) key = (get? entries key).or (get? others key) := by
  rw [get?, get?, get?, List.find?_append]
  cases entries.find? fun entry => entry.1 == key <;> rfl

theorem get?_eq_none_iff : get? entries key = none ↔ key ∉ entries.map (·.1) := by
  simp only [get?, Option.map_eq_none_iff, List.find?_eq_none, beq_iff_eq, List.mem_map,
    not_exists, not_and]

theorem get?_replace (entries : List (String × α)) (key other : String) (value : α) :
    get? (entries.map fun entry => if entry.1 == key then (key, value) else entry) other =
      if key = other then (get? entries other).map fun _ => value else get? entries other := by
  induction entries with
  | nil => simp [get?]
  | cons first rest hypothesis =>
      rw [List.map_cons, get?_cons, get?_cons, hypothesis]
      by_cases own : first.1 = key
      · subst own
        by_cases same : first.1 = other <;> simp [same]
      · by_cases same : key = other
        · subst same
          simp [own]
        · simp [own, same]

/-- A key that is there keeps its place. -/
theorem put_of_mem (present : key ∈ entries.map (·.1)) (value : α) :
    put entries key value =
      entries.map fun entry => if entry.1 == key then (key, value) else entry := by
  rw [put, if_pos]
  rcases List.mem_map.mp present with ⟨entry, inside, same⟩
  exact List.any_eq_true.mpr ⟨entry, inside, by simpa using same⟩

/-- A record answers with what was put last under a key. -/
theorem get?_put (entries : List (String × α)) (key other : String) (value : α) :
    get? (put entries key value) other =
      if key = other then some value else get? entries other := by
  by_cases present : key ∈ entries.map (·.1)
  · rw [put_of_mem present, get?_replace]
    by_cases same : key = other
    · subst same
      cases found : get? entries key with
      | none => exact absurd present (get?_eq_none_iff.mp found)
      | some old => simp
    · simp [same]
  · rw [put_of_not_mem present, get?_append, get?_cons]
    by_cases same : key = other
    · rw [← same, get?_eq_none_iff.mpr present]
      simp
    · simp [same, get?]

theorem nodup_put (distinct : (entries.map (·.1)).Nodup) (key : String) (value : α) :
    ((put entries key value).map (·.1)).Nodup := by
  by_cases present : key ∈ entries.map (·.1)
  · have keys : (entries.map fun entry => if entry.1 == key then (key, value) else entry).map
        (·.1) = entries.map (·.1) := by
      rw [List.map_map]
      apply List.map_congr_left
      intro entry _
      by_cases same : entry.1 = key <;> simp [same]
    rwa [put_of_mem present, keys]
  · rw [put_of_not_mem present, List.map_append]
    apply List.nodup_append.mpr
    refine ⟨distinct, by simp, ?_⟩
    rintro _ member _ own rfl
    rw [List.mem_singleton.mp own] at member
    exact present member

theorem perm_insertIndexed (entry : String × α) (entries : List (String × α)) :
    (insertIndexed entry entries).Perm (entry :: entries) := by
  induction entries with
  | nil => exact List.Perm.refl _
  | cons first rest hypothesis =>
      rw [insertIndexed]
      split
      · exact List.Perm.refl _
      · exact (hypothesis.cons first).trans (List.Perm.swap _ _ _)

theorem perm_arrange (entries : List (String × α)) : (arrange entries).Perm entries := by
  have sorted (indexed : List (String × α)) : (indexed.foldr insertIndexed []).Perm indexed := by
    induction indexed with
    | nil => exact List.Perm.refl _
    | cons first rest hypothesis =>
        exact (perm_insertIndexed first _).trans (hypothesis.cons first)
  have parted : (fun entry : String × α => (indexOf? entry.1).isNone) =
      fun entry => !(indexOf? entry.1).isSome := by
    funext entry
    cases indexOf? entry.1 <;> rfl
  rw [arrange, parted]
  exact ((sorted _).append_right _).trans (List.filter_append_perm _ _)

theorem get?_foldl_put {given made : List (String × α)} (distinct : (made.map (·.1)).Nodup) :
    ((given.foldl (fun made entry => put made entry.1 entry.2) made).map (·.1)).Nodup ∧
      ∀ key, get? (given.foldl (fun made entry => put made entry.1 entry.2) made) key =
        (get? given.reverse key).or (get? made key) := by
  induction given generalizing made with
  | nil => exact ⟨distinct, fun _ => rfl⟩
  | cons first rest hypothesis =>
      rcases hypothesis (nodup_put distinct first.1 first.2) with ⟨kept, answers⟩
      refine ⟨kept, fun key => ?_⟩
      rw [List.foldl_cons, answers, List.reverse_cons, get?_append, get?_put, get?_cons]
      by_cases same : first.1 = key <;> simp [same, get?]

/-- A record answers with what was given last under a key. -/
theorem get?_ofEntries (entries : List (String × α)) (key : String) :
    get? (ofEntries entries) key = get? entries.reverse key := by
  rcases @get?_foldl_put α entries [] List.nodup_nil with ⟨distinct, answers⟩
  have arranged := (perm_arrange
    (entries.foldl (fun made entry => put made entry.1 entry.2) [])).map (·.1)
  apply Option.ext
  intro value
  have last := answers key
  rw [show get? [] key = (none : Option α) from rfl, Option.or_none] at last
  rw [← last, ofEntries, get?_eq_some_iff (arranged.nodup_iff.mpr distinct),
    get?_eq_some_iff distinct, mem_arrange]

end Record

namespace Scope

theorem mem_register {graph : Graph} {entries : List (String × ObjectId)} {id : ObjectId}
    {entry : String × ObjectId} (member : entry ∈ register graph entries id) :
    entry ∈ entries ∨ entry.2 = id ∧ graph.name? entry.2 = some entry.1 := by
  unfold register at member
  split at member
  · next name named =>
      rcases Record.mem_put member with old | same
      · exact Or.inl old
      · exact Or.inr (by simp [same, named])
  · exact Or.inl member

theorem mem_foldl_register {graph : Graph} {ids : List ObjectId}
    {made : List (String × ObjectId)} {entry : String × ObjectId}
    (member : entry ∈ ids.foldl (register graph) made) :
    entry ∈ made ∨ entry.2 ∈ ids ∧ graph.name? entry.2 = some entry.1 := by
  induction ids generalizing made with
  | nil => exact Or.inl member
  | cons id rest hypothesis =>
      rcases hypothesis member with early | ⟨late, named⟩
      · rcases mem_register early with old | ⟨same, named⟩
        · exact Or.inl old
        · exact Or.inr ⟨by simp [same], named⟩
      · exact Or.inr ⟨List.mem_cons_of_mem _ late, named⟩

/-- A table registers objects it was made of, under their names. -/
theorem mem_tableOf {graph : Graph} {ids : List ObjectId} {name : String} {id : ObjectId}
    (found : Record.get? (tableOf graph ids) name = some id) :
    id ∈ ids ∧ graph.name? id = some name := by
  rcases mem_foldl_register (Record.mem_of_get? found) with nothing | given
  · cases nothing
  · exact given

theorem foldl_register {graph : Graph} {made entries : List (String × ObjectId)}
    (named : ∀ entry ∈ entries, graph.name? entry.2 = some entry.1)
    (distinct : ((made ++ entries).map (·.1)).Nodup) :
    (entries.map (·.2)).foldl (register graph) made = made ++ entries := by
  induction entries generalizing made with
  | nil => simp
  | cons first rest hypothesis =>
      have absent : first.1 ∉ made.map (·.1) := by
        simp only [List.map_append, List.map_cons] at distinct
        intro member
        exact (List.nodup_append.mp distinct).2.2 _ member _ List.mem_cons_self rfl
      have step : register graph made first.2 = made ++ [first] := by
        rw [register, named first List.mem_cons_self]
        exact Record.put_of_not_mem absent
      have others := @hypothesis (made ++ [first])
        (fun other member => named other (List.mem_cons_of_mem _ member)) (by simpa using distinct)
      rw [List.map_cons, List.foldl_cons, step, others, List.append_assoc]
      rfl

/-- Objects of distinct names make the table of these names. -/
theorem tableOf_eq {graph : Graph} {entries : List (String × ObjectId)}
    (named : ∀ entry ∈ entries, graph.name? entry.2 = some entry.1)
    (distinct : (entries.map (·.1)).Nodup) : tableOf graph (entries.map (·.2)) = entries :=
  @foldl_register graph [] entries named distinct

end Scope

end IdlLinker
