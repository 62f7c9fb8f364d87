import IdlLinker.Proofs.Record

/-!
# What names mean

A name means the object that a scope has under it.  If there is none, the name
is taken apart at its first dot: what follows the dot has its meaning in the
scope included under what precedes it.  Looking up a name finds its meaning.
-/

namespace IdlLinker

namespace Name

theorem segments_of_not_mem {characters : List Char} (plain : '.' ∉ characters) :
    segments characters = [characters] := by
  induction characters with
  | nil => rfl
  | cons first rest hypothesis =>
      simp only [List.mem_cons, not_or] at plain
      have others := hypothesis plain.2
      rw [segments.eq_3 _ _ (fun same => plain.1 same.symm), others]

theorem segments_append_dot {before : List Char} (plain : '.' ∉ before) (after : List Char) :
    segments (before ++ '.' :: after) = before :: segments after := by
  induction before with
  | nil => rfl
  | cons first rest hypothesis =>
      simp only [List.mem_cons, not_or] at plain
      have others := hypothesis plain.2
      rw [List.cons_append, segments.eq_3 _ _ (fun same => plain.1 same.symm), others]

/-- An identifier is no empty name and has no dot. -/
theorem plain_of_isIdentifier {name : String} (identifier : isIdentifier name = true) :
    '.' ∉ name.toList ∧ name ≠ "" := by
  constructor
  · intro dotted
    unfold isIdentifier at identifier
    cases characters : name.toList with
    | nil => simp [characters] at dotted
    | cons first rest =>
        rw [characters] at identifier dotted
        simp only [isIdentifierChars, Bool.and_eq_true, List.all_eq_true] at identifier
        rcases List.mem_cons.mp dotted with rfl | later
        · exact absurd identifier.1 (by decide)
        · exact absurd (identifier.2 '.' later) (by decide)
  · rintro rfl
    cases identifier

/-- A name has no dot, or it has a first one. -/
theorem plain_or_dotted (name : String) :
    '.' ∉ name.toList ∨
      ∃ key rest : String, '.' ∉ key.toList ∧ name = key ++ "." ++ rest := by
  by_cases dotted : '.' ∈ name.toList
  · right
    rcases List.eq_append_cons_of_mem dotted with ⟨before, after, parts, plain⟩
    refine ⟨String.ofList before, String.ofList after, by simpa using plain, ?_⟩
    apply String.toList_inj.mp
    simpa using parts
  · exact Or.inl dotted

end Name

namespace Scope

variable {scope inner home : Scope} {kind : EntityKind} {name key rest : String} {id : ObjectId}

theorem resolve_of_own (found : Record.get? (scope.table kind) name = some id) :
    scope.resolve kind name = some (id, scope) := by
  unfold resolve
  cases parts : Name.segments name.toList with
  | nil => exact absurd parts (Name.segments_ne_nil _)
  | cons first more =>
      have joined : Name.joinSegments (first :: more) = name.toList := by
        rw [← parts, Name.joinSegments_segments]
      simp [resolveSegments, joined, found]

theorem resolve_of_plain (missing : Record.get? (scope.table kind) name = none)
    (plain : '.' ∉ name.toList) : scope.resolve kind name = none := by
  rw [resolve, Name.segments_of_not_mem plain]
  simp [resolveSegments, Name.joinSegments, missing]

/-- A dotted name that a scope does not have leads into an included scope. -/
theorem resolve_of_dotted (missing : Record.get? (scope.table kind) (key ++ "." ++ rest) = none)
    (plain : '.' ∉ key.toList) :
    scope.resolve kind (key ++ "." ++ rest) =
      if key = "" then none
      else (Record.get? scope.includes key).bind fun inner => inner.resolve kind rest := by
  have parts : Name.segments (key ++ "." ++ rest).toList =
      key.toList :: Name.segments rest.toList := by
    simpa using Name.segments_append_dot plain rest.toList
  have joined : String.ofList (Name.joinSegments (key.toList :: Name.segments rest.toList)) =
      key ++ "." ++ rest := by
    rw [← parts, Name.joinSegments_segments, String.ofList_toList]
  have more : (Name.segments rest.toList).isEmpty = false := by
    simpa using Name.segments_ne_nil rest.toList
  rw [resolve, parts, resolveSegments]
  simp only [joined, missing, more, Bool.or_false, String.ofList_toList]
  by_cases empty : key = ""
  · simp [empty]
  · have some : key.toList.isEmpty = false := by simpa using empty
    simp only [some, Bool.false_eq_true, if_false, empty]
    cases Record.get? scope.includes key <;> rfl

/-- What a name means in a scope. -/
inductive Means (kind : EntityKind) : Scope → String → ObjectId → Prop where
  | own {scope : Scope} {name : String} {id : ObjectId}
      (found : Record.get? (scope.table kind) name = some id) : Means kind scope name id
  | included {scope inner : Scope} {key rest : String} {id : ObjectId}
      (missing : Record.get? (scope.table kind) (key ++ "." ++ rest) = none)
      (plain : '.' ∉ key.toList) (nonempty : key ≠ "")
      (found : Record.get? scope.includes key = some inner)
      (meant : Means kind inner rest id) : Means kind scope (key ++ "." ++ rest) id

theorem means_iff : Means kind scope name id ↔
    Record.get? (scope.table kind) name = some id ∨
      Record.get? (scope.table kind) name = none ∧
        ∃ key rest inner, name = key ++ "." ++ rest ∧ '.' ∉ key.toList ∧ key ≠ "" ∧
          Record.get? scope.includes key = some inner ∧ Means kind inner rest id := by
  constructor
  · intro meant
    cases meant with
    | own found => exact Or.inl found
    | included missing plain nonempty found meant =>
        exact Or.inr ⟨missing, _, _, _, rfl, plain, nonempty, found, meant⟩
  · rintro (found | ⟨missing, key, rest, inner, rfl, plain, nonempty, found, meant⟩)
    · exact Means.own found
    · exact Means.included missing plain nonempty found meant

/-- A reference denotes the object that its name means. -/
def Denotes (scope : Scope) (reference : Reference) (slot : Slot) : Prop :=
  ∃ id, Means reference.kind scope reference.name id ∧ slot = .object id

theorem means_of_lookup (found : scope.lookup kind name = some id) :
    Means kind scope name id := by
  -- The rest after a dot is shorter than the name.
  induction size : name.length using Nat.strongRecOn generalizing scope name with
  | ind length hypothesis =>
      unfold lookup at found
      cases own : Record.get? (scope.table kind) name with
      | some other =>
          rw [resolve_of_own own] at found
          cases found
          exact Means.own own
      | none =>
          rcases Name.plain_or_dotted name with plain | ⟨key, rest, plain, rfl⟩
          · rw [resolve_of_plain own plain] at found
            cases found
          · rw [resolve_of_dotted own plain] at found
            split at found
            · cases found
            · next nonempty =>
                cases included : Record.get? scope.includes key with
                | none =>
                    rw [included] at found
                    cases found
                | some inner =>
                    rw [included] at found
                    have shorter : rest.length < length := by
                      have dot : ".".length = 1 := rfl
                      rw [← size, String.length_append, String.length_append]
                      omega
                    exact Means.included own plain nonempty included
                      (hypothesis rest.length shorter found rfl)

theorem Means.lookup_eq (meant : Means kind scope name id) :
    scope.lookup kind name = some id := by
  induction meant with
  | own found =>
      rw [lookup, resolve_of_own found]
      rfl
  | included missing plain nonempty found _ hypothesis =>
      rw [lookup, resolve_of_dotted missing plain, if_neg nonempty, found]
      exact hypothesis

/-- Looking up a name finds what it means, and nothing else. -/
theorem lookup_eq_some_iff : scope.lookup kind name = some id ↔ Means kind scope name id :=
  ⟨means_of_lookup, Means.lookup_eq⟩

end Scope

end IdlLinker
