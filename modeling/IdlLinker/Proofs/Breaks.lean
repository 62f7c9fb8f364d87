import Mathlib.Data.List.Nodup
import IdlLinker.Compile.Trace
import IdlLinker.Proofs.Compiled
import IdlLinker.Proofs.Repeated

/-!
# Lists that break at an item

A list that breaks at an item is not valid, whatever follows, and a namespace
that refuses an item names the one before it that has its name.
-/

namespace IdlLinker

section Lists

variable {α β γ κ : Type}

/-- Where what begins a valid list is valid, a list that breaks is not. -/
theorem BreaksAt.not_valid {valid : List α → Prop} {items before : List α} {item : α}
    (begins : ∀ first second, valid (first ++ second) → valid first)
    (breaks : BreaksAt valid items before item) : ¬ valid items := by
  rcases breaks.split with ⟨after, rfl⟩
  intro whole
  rw [List.append_cons] at whole
  exact breaks.broken (begins _ _ whole)

theorem Along.length_eq {relation : List α → α → β → Prop} {before items : List α}
    {made : List β} (along : Along relation before items made) : made.length = items.length := by
  induction along with
  | nil => rfl
  | cons _ _ hypothesis => rw [List.length_cons, List.length_cons, hypothesis]

/-- What is made along a list can be changed item by item. -/
theorem Along.change {relation : List α → α → β → Prop} {other : List α → α → γ → Prop}
    {change : β → γ → Prop} {before items : List α} {made : List β} {changed : List γ}
    (along : Along relation before items made)
    (step : ∀ before item first second, relation before item first → change first second →
      other before item second)
    (changes : List.Forall₂ change made changed) : Along other before items changed := by
  induction along generalizing changed with
  | nil =>
      cases changes
      exact Along.nil
  | cons here _ hypothesis =>
      cases changes with
      | cons first others => exact Along.cons (step _ _ _ _ here first) (hypothesis others)

/-- Names stay distinct just when the name of a further item is new. -/
theorem nodup_map_append_singleton {name : α → β} {before : List α} {item : α} :
    ((before ++ [item]).map name).Nodup ↔
      (before.map name).Nodup ∧ name item ∉ before.map name := by
  rw [List.map_append, List.map_singleton, ← List.concat_eq_append, List.nodup_concat, and_comm]

variable {declare : α → String × Number} {before : List α} {item : α} {error : CompileError}

theorem Redeclares.mem (redeclares : Redeclares declare before item error) :
    (declare item).1 ∈ before.map fun other => (declare other).1 := by
  rcases redeclares with ⟨first, member, same, _⟩
  exact List.mem_map.mpr ⟨first, member, same⟩

namespace Namespace

variable {names claimed : Namespace} (tracks : names.declared = before.map declare)

include tracks

/-- A name that is refused is that of an item before. -/
theorem redeclares_of_claim
    (refused : names.claim (declare item).1 (declare item).2 = .error error) :
    Redeclares declare before item error := by
  rcases claim_eq_error_iff.mp refused with ⟨line, found, rfl⟩
  have member := Record.mem_of_get? found
  rw [tracks] at member
  rcases List.mem_map.mp member with ⟨first, earlier, same⟩
  exact ⟨first, earlier, by rw [same], by rw [same]⟩

/-- A name that is taken is new, and the namespace goes on with it. -/
theorem fresh_of_claim (taken : names.claim (declare item).1 (declare item).2 = .ok claimed) :
    ((declare item).1 ∉ before.map fun other => (declare other).1) ∧
      claimed.declared = (before ++ [item]).map declare := by
  rcases claim_eq_ok_iff.mp taken with ⟨fresh, rfl⟩
  rw [tracks, List.map_map] at fresh
  exact ⟨fresh, by simp [tracks]⟩

end Namespace

end Lists

theorem bind_eq_ok_iff {α β : Type} {first : Except CompileError α}
    {next : α → Except CompileError β} {value : β} :
    (first >>= next) = .ok value ↔ ∃ middle, first = .ok middle ∧ next middle = .ok value := by
  cases first <;> simp [Bind.bind, Except.bind]

namespace Compilation

variable {α β : Type} {first : Compilation α}

@[simp]
theorem journal_ofExcept (outcome : Except CompileError α) : (ofExcept outcome).journal = [] := rfl

/-- The journal of a step that succeeds comes before that of what follows. -/
theorem journal_bind_of_ok {next : α → Compilation β} {value : α}
    (ended : first.outcome = .ok value) :
    (first >>= next).journal = first.journal ++ (next value).journal := by
  change (Compilation.bind first next).journal = _
  rw [Compilation.bind, ended]

/-- After a step that fails nothing is written. -/
theorem journal_bind_of_error {next : α → Compilation β} {error : CompileError}
    (ended : first.outcome = .error error) : (first >>= next).journal = first.journal := by
  change (Compilation.bind first next).journal = _
  rw [Compilation.bind, ended]

/-- Making something of a result writes nothing. -/
theorem journal_bind_pure (first : Compilation α) (make : α → β) :
    (first >>= fun value => pure (make value)).journal = first.journal := by
  cases ended : first.outcome with
  | error error => exact journal_bind_of_error ended
  | ok value => exact (journal_bind_of_ok ended).trans (List.append_nil _)

end Compilation

end IdlLinker
