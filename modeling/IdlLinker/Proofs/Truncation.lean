import IdlLinker.Proofs.Loading
import Mathlib.Algebra.Order.Field.Rat
import Mathlib.Data.Nat.Cast.Order.Ring

/-!
# Accounting for diagnostics

Loading reports what its first failing stage finds, within the limit, and the
warning in the last place counts what it leaves out.
-/

namespace IdlLinker

/-! ## Limits -/

namespace Diagnostic

variable {limit : Nat}

theorem cap_ofNat (diagnostics : List Diagnostic) (count : Nat) :
    cap diagnostics (.ofNat count) = .ok (diagnostics.take count) := by
  unfold cap
  rw [show Number.ofNat count = .ofInt count from rfl, Number.toInt?_ofInt]

theorem pred_ofNat (floor : 1 ≤ limit) : (Number.ofNat limit).pred = .ofNat (limit - 1) := by
  unfold Number.pred Number.ofNat
  dsimp only
  rw [Nat.cast_sub floor]
  push_cast
  rfl

theorem admits_ofNat {count : Nat} : (Number.ofNat limit).admits count = true ↔ count ≤ limit := by
  unfold Number.admits Number.ofNat
  rw [decide_eq_true_iff, Int.cast_natCast, Nat.cast_le]

/-- A limit that is a count above zero is never refused. -/
theorem settleWithin_ofNat (diagnostics : List Diagnostic) (floor : 1 ≤ limit) :
    settleWithin diagnostics (.ofNat limit) = .ok (settle diagnostics limit) := by
  unfold settleWithin settle
  dsimp only
  rw [pred_ofNat floor, cap_ofNat]
  by_cases room : (dedupe diagnostics).length ≤ limit
  · rw [if_pos (admits_ofNat.mpr room), if_pos room]
  · rw [if_neg (mt admits_ofNat.mp room), if_neg room]
    rfl

theorem length_settle_le (diagnostics : List Diagnostic) (floor : 1 ≤ limit) :
    (settle diagnostics limit).length ≤ limit := by
  rcases Nat.lt_or_ge limit (dedupe diagnostics).length with full | room
  · rw [settle_of_lt_length full, List.length_append, List.length_take, List.length_singleton]
    omega
  · rwa [settle_of_length_le room]

end Diagnostic

namespace Load

/-- A limit is used as a count, whatever number is given. -/
theorem limitNumber_eq (limit : Option Number) (default : Nat) :
    limitNumber limit default = .ofNat (settleLimit limit default) := by
  cases limit with
  | none => rfl
  | some number =>
      cases number with
      | nan => rfl
      | infinite negative => rfl
      | finite value =>
          have atLeastOne : max 1 value.floor = (max 1 value.floor.toNat : Nat) := by omega
          unfold limitNumber settleLimit Number.ofInt Number.ofNat
          dsimp only
          rw [atLeastOne]

example : limitNumber (some (.finite (5 / 2))) 100 = .ofNat 2 ∧
    limitNumber (some (.finite (-3))) 100 = .ofNat 1 ∧
      limitNumber (some .nan) 100 = .ofNat 100 := by
  decide +kernel

end Load

end IdlLinker
