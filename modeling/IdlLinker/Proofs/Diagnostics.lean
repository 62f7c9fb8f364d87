import IdlLinker.Diagnostic

/-!
# Settled diagnostics

Of every key one diagnostic is kept, and a list that is too long for a limit is
cut.  A list of errors that is settled still has an error, except where the
limit leaves room for the warning alone.
-/

namespace IdlLinker

namespace Diagnostic

variable {diagnostics : List Diagnostic} {limit : Nat}

/-- Every diagnostic is an error. -/
def AllErrors (diagnostics : List Diagnostic) : Prop :=
  ∀ diagnostic ∈ diagnostics, diagnostic.severity = .error

@[simp]
theorem hasErrors_nil : hasErrors [] = false := rfl

theorem hasErrors_iff :
    hasErrors diagnostics = true ↔ ∃ diagnostic ∈ diagnostics, diagnostic.severity = .error := by
  simp [hasErrors]

namespace AllErrors

theorem of_subset {others : List Diagnostic} (errors : AllErrors diagnostics)
    (subset : others ⊆ diagnostics) : AllErrors others :=
  fun diagnostic member => errors diagnostic (subset member)

/-- Among errors there is an error as soon as there is anything. -/
theorem hasErrors_iff_ne_nil (errors : AllErrors diagnostics) :
    hasErrors diagnostics = true ↔ diagnostics ≠ [] := by
  rw [hasErrors_iff]
  constructor
  · rintro ⟨diagnostic, member, _⟩
    exact List.ne_nil_of_mem member
  · intro some
    rcases List.exists_mem_of_ne_nil _ some with ⟨diagnostic, member⟩
    exact ⟨diagnostic, member, errors diagnostic member⟩

end AllErrors

/-! ## Repeated diagnostics -/

theorem dedupeAfter_sublist (seen : List String) (diagnostics : List Diagnostic) :
    (dedupeAfter seen diagnostics).Sublist diagnostics := by
  induction diagnostics generalizing seen with
  | nil => exact List.Sublist.slnil
  | cons diagnostic rest hypothesis =>
      unfold dedupeAfter
      split
      · exact (hypothesis seen).cons diagnostic
      · exact (hypothesis _).cons_cons diagnostic

theorem mem_keys_dedupeAfter {seen : List String} {key : String} :
    key ∈ (dedupeAfter seen diagnostics).map Diagnostic.key ↔
      key ∈ diagnostics.map Diagnostic.key ∧ key ∉ seen := by
  induction diagnostics generalizing seen with
  | nil => simp [dedupeAfter]
  | cons diagnostic rest hypothesis =>
      unfold dedupeAfter
      split
      · next old =>
          rw [hypothesis, List.map_cons, List.mem_cons, or_and_right]
          refine (or_iff_right ?_).symm
          rintro ⟨rfl, fresh⟩
          exact fresh old
      · next fresh =>
          simp only [List.map_cons, List.mem_cons, hypothesis, not_or]
          by_cases same : key = diagnostic.key
          · simp [same, fresh]
          · simp [same]

/-- No diagnostic is lost: one with its key is kept. -/
theorem mem_keys_dedupe {key : String} :
    key ∈ (dedupe diagnostics).map Diagnostic.key ↔ key ∈ diagnostics.map Diagnostic.key := by
  simp [dedupe, mem_keys_dedupeAfter]

theorem dedupe_eq_nil_iff : dedupe diagnostics = [] ↔ diagnostics = [] := by
  constructor
  · intro empty
    refine List.eq_nil_iff_forall_not_mem.mpr fun diagnostic member => ?_
    simpa [empty] using mem_keys_dedupe.mpr (List.mem_map_of_mem (f := Diagnostic.key) member)
  · rintro rfl
    rfl

theorem dedupeAfter_of_nodup {seen : List String} (distinct : (diagnostics.map key).Nodup)
    (unseen : ∀ diagnostic ∈ diagnostics, diagnostic.key ∉ seen) :
    dedupeAfter seen diagnostics = diagnostics := by
  induction diagnostics generalizing seen with
  | nil => rfl
  | cons diagnostic rest hypothesis =>
      rw [List.map_cons, List.nodup_cons] at distinct
      rw [List.forall_mem_cons] at unseen
      rw [dedupeAfter, if_neg unseen.1, hypothesis distinct.2]
      intro other member
      rw [List.mem_cons, not_or]
      refine ⟨fun same => ?_, unseen.2 other member⟩
      exact distinct.1 (same ▸ List.mem_map_of_mem member)

/-- Where keys are distinct nothing is dropped. -/
theorem dedupe_of_nodup (distinct : (diagnostics.map key).Nodup) :
    dedupe diagnostics = diagnostics :=
  dedupeAfter_of_nodup distinct fun _ _ => List.not_mem_nil

theorem AllErrors.dedupe (errors : AllErrors diagnostics) : AllErrors (dedupe diagnostics) :=
  errors.of_subset (dedupeAfter_sublist [] diagnostics).subset

/-! ## The limit -/

@[simp]
theorem settle_nil (limit : Nat) : settle [] limit = [] := by
  simp [settle, dedupe, dedupeAfter]

theorem settle_of_length_le (room : (dedupe diagnostics).length ≤ limit) :
    settle diagnostics limit = dedupe diagnostics := by
  simp [settle, room]

theorem settle_of_lt_length (full : limit < (dedupe diagnostics).length) :
    settle diagnostics limit =
      (dedupe diagnostics).take (limit - 1) ++
        [truncated ((dedupe diagnostics).length - (limit - 1))] := by
  have count : min (limit - 1) (dedupe diagnostics).length = limit - 1 := by omega
  simp [settle, Nat.not_le.mpr full, count]

/-- Settling adds nothing but the warning. -/
theorem mem_or_eq_of_mem_settle {diagnostic : Diagnostic}
    (member : diagnostic ∈ settle diagnostics limit) :
    diagnostic ∈ diagnostics ∨ ∃ count, diagnostic = truncated count := by
  have kept := (dedupeAfter_sublist [] diagnostics).subset
  rcases Nat.lt_or_ge limit (dedupe diagnostics).length with full | room
  · rw [settle_of_lt_length full] at member
    rcases List.mem_append.mp member with taken | warning
    · exact Or.inl (kept (List.mem_of_mem_take taken))
    · exact Or.inr ⟨_, List.mem_singleton.mp warning⟩
  · rw [settle_of_length_le room] at member
    exact Or.inl (kept member)

/-- Without the warning nothing was left out. -/
theorem settle_eq_dedupe (whole : ∀ count, truncated count ∉ settle diagnostics limit) :
    settle diagnostics limit = dedupe diagnostics := by
  rcases Nat.lt_or_ge limit (dedupe diagnostics).length with full | room
  · rw [settle_of_lt_length full] at whole
    exact absurd (List.mem_append_right _ (List.mem_singleton_self _)) (whole _)
  · exact settle_of_length_le room

/-- At a limit of one the warning stands alone for two diagnostics or more. -/
theorem settle_one (several : 2 ≤ (dedupe diagnostics).length) :
    settle diagnostics 1 = [truncated (dedupe diagnostics).length] := by
  simpa using @settle_of_lt_length diagnostics 1 several

@[simp]
theorem hasErrors_truncated (count : Nat) : hasErrors [truncated count] = false := rfl

/-- Settled errors have an error exactly when there are any, unless the
warning stands alone. -/
theorem AllErrors.hasErrors_settle_iff (errors : AllErrors diagnostics) (floor : 1 ≤ limit) :
    hasErrors (settle diagnostics limit) = true ↔
      diagnostics ≠ [] ∧ ¬(limit = 1 ∧ 2 ≤ (Diagnostic.dedupe diagnostics).length) := by
  rcases Nat.lt_or_ge limit (Diagnostic.dedupe diagnostics).length with full | room
  · have found : diagnostics ≠ [] := by
      rintro rfl
      simp [dedupe_eq_nil_iff.mpr] at full
    -- Only a limit of one leaves nothing in front of the warning.
    rcases Nat.eq_or_lt_of_le floor with rfl | more
    · have alone : 2 ≤ (Diagnostic.dedupe diagnostics).length := full
      simp [settle_one alone, alone]
    · have kept : (Diagnostic.dedupe diagnostics).take (limit - 1) ≠ [] := by
        rw [Ne, List.take_eq_nil_iff, dedupe_eq_nil_iff]
        exact not_or.mpr ⟨by omega, found⟩
      have error : hasErrors ((Diagnostic.dedupe diagnostics).take (limit - 1)) = true :=
        (errors.dedupe.of_subset (List.take_subset _ _)).hasErrors_iff_ne_nil.mpr kept
      rw [settle_of_lt_length full, hasErrors, List.any_append, ← hasErrors, error]
      simp [found]
      omega
  · rw [settle_of_length_le room, errors.dedupe.hasErrors_iff_ne_nil, Ne, dedupe_eq_nil_iff]
    refine (and_iff_left ?_).symm
    omega

end Diagnostic

end IdlLinker
