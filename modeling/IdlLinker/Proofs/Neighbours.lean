import IdlLinker.Proofs.Numerals
import Mathlib.Tactic.Linarith
import Mathlib.Tactic.Positivity

/-!
# Neighbouring numbers

A positive number of the format is a significand times a power of two.  What
reads back as it lies between the midpoints to its neighbours, so nothing reads
back as two numbers.
-/

namespace IdlLinker.Number

/-! ## Significands -/

/-- A significand and an exponent as a number of the format has them: the
significand has all of its bits unless the exponent is the lowest. -/
structure Normal (significand : Nat) (exponent : Int) : Prop where
  fits : significand < 2 * leadingBit
  full : leadingBit ≤ significand ∨ exponent = -1074
  lowest : -1074 ≤ exponent

theorem two_zpow_pos (exponent : Int) : (0 : Rat) < 2 ^ exponent :=
  zpow_pos (by norm_num) exponent

section Scaled

variable {significand other : Nat} {exponent : Int}

theorem scaled_add (significand : Nat) (exponent : Int) (shift : Nat) :
    scaled significand (exponent + shift) = scaled (significand * 2 ^ shift) exponent := by
  rw [scaled_eq, scaled_eq, zpow_add₀ (by norm_num), zpow_natCast]
  push_cast
  ring

theorem scaled_le_scaled_iff :
    scaled significand exponent ≤ scaled other exponent ↔ significand ≤ other := by
  rw [scaled_eq, scaled_eq, mul_le_mul_iff_left₀ (two_zpow_pos exponent), Nat.cast_le]

theorem scaled_lt_scaled_iff :
    scaled significand exponent < scaled other exponent ↔ significand < other := by
  rw [← not_le, scaled_le_scaled_iff, not_le]

theorem scaled_quarters (significand : Nat) (exponent : Int) :
    scaled significand exponent = scaled (4 * significand) (exponent - 2) := by
  have apart : exponent = exponent - 2 + (2 : Nat) := by omega
  rw [apart, scaled_add, ← apart, mul_comm]
  rfl

end Scaled

/-! ## The leading bit -/

section Leading

variable {numerator denominator : Nat}

/-- How a quotient is compared with a power of two. -/
theorem two_zpow_le_div_iff (divides : 0 < denominator) (exponent : Int) :
    (2 : Rat) ^ exponent ≤ numerator / denominator ↔
      if 0 ≤ exponent then denominator * Nat.pow 2 exponent.toNat ≤ numerator
      else denominator ≤ numerator * Nat.pow 2 (-exponent).toNat := by
  have positive : (0 : Rat) < denominator := by exact_mod_cast divides
  rw [le_div_iff₀ positive]
  split
  · next up =>
      lift exponent to Nat using up
      rw [zpow_natCast, mul_comm]
      exact_mod_cast Iff.rfl
  · next down =>
      obtain ⟨size, rfl⟩ := Int.exists_eq_neg_ofNat (not_le.mp down).le
      rw [zpow_neg, zpow_natCast, inv_mul_le_iff₀ (by positivity), neg_neg, Int.toNat_natCast,
        mul_comm]
      exact_mod_cast Iff.rfl

/-- The logarithms of a numerator and a denominator tell that of the quotient, up
to one. -/
theorem div_between (nonzero : 0 < numerator) (divides : 0 < denominator) :
    (2 : Rat) ^ ((numerator.log2 : Int) - denominator.log2 - 1) ≤ numerator / denominator ∧
      (numerator / denominator : Rat) < 2 ^ ((numerator.log2 : Int) - denominator.log2 + 1) := by
  have positive : (0 : Rat) < denominator := by exact_mod_cast divides
  have least : (2 : Rat) ^ (numerator.log2 : Int) ≤ numerator := by
    exact_mod_cast Nat.log2_self_le nonzero.ne'
  have most : (numerator : Rat) < 2 ^ (numerator.log2 + 1 : Int) := by
    exact_mod_cast Nat.lt_log2_self
  have leastDivisor : (2 : Rat) ^ (denominator.log2 : Int) ≤ denominator := by
    exact_mod_cast Nat.log2_self_le divides.ne'
  have mostDivisor : (denominator : Rat) < 2 ^ (denominator.log2 + 1 : Int) := by
    exact_mod_cast Nat.lt_log2_self
  constructor
  · have split : (numerator.log2 : Int) = numerator.log2 - denominator.log2 - 1 +
        (denominator.log2 + 1) := by omega
    rw [le_div_iff₀ positive]
    calc (2 : Rat) ^ ((numerator.log2 : Int) - denominator.log2 - 1) * denominator
        ≤ 2 ^ ((numerator.log2 : Int) - denominator.log2 - 1) * 2 ^ (denominator.log2 + 1 : Int) :=
          mul_le_mul_of_nonneg_left mostDivisor.le (two_zpow_pos _).le
      _ = 2 ^ (numerator.log2 : Int) := by rw [← zpow_add₀ (by norm_num), ← split]
      _ ≤ numerator := least
  · have split : (numerator.log2 + 1 : Int) = numerator.log2 - denominator.log2 + 1 +
        denominator.log2 := by omega
    rw [div_lt_iff₀ positive]
    calc (numerator : Rat) < 2 ^ (numerator.log2 + 1 : Int) := most
      _ = 2 ^ ((numerator.log2 : Int) - denominator.log2 + 1) * 2 ^ (denominator.log2 : Int) := by
          rw [← zpow_add₀ (by norm_num), ← split]
      _ ≤ 2 ^ ((numerator.log2 : Int) - denominator.log2 + 1) * denominator :=
          mul_le_mul_of_nonneg_left leastDivisor (two_zpow_pos _).le

/-- The power of two that the leading bit of a magnitude counts, and the last
one. -/
theorem exists_leading (nonzero : 0 < numerator) (divides : 0 < denominator) :
    ∃ leading : Int, lastBit numerator denominator = max (leading - 52) (-1074) ∧
      (2 : Rat) ^ leading ≤ numerator / denominator ∧
        (numerator / denominator : Rat) < 2 ^ (leading + 1) := by
  rcases div_between nonzero divides with ⟨least, most⟩
  have reached (exponent : Int) :
      (if 0 ≤ exponent then decide (denominator * Nat.pow 2 exponent.toNat ≤ numerator)
        else decide (denominator ≤ numerator * Nat.pow 2 (-exponent).toNat)) =
        decide ((2 : Rat) ^ exponent ≤ numerator / denominator) := by
    rw [Bool.eq_iff_iff, decide_eq_true_iff, two_zpow_le_div_iff divides]
    split <;> exact decide_eq_true_iff
  unfold lastBit
  simp only [reached, decide_eq_true_eq]
  split
  · next up => exact ⟨_, rfl, up, most⟩
  · next down =>
      refine ⟨_, rfl, least, ?_⟩
      rw [Int.sub_add_cancel]
      exact not_le.mp down

end Leading

theorem natAbs_num_div_den (value : Rat) : (value.num.natAbs / value.den : Rat) = |value| := by
  rw [Rat.abs_def, Rat.divInt_eq_div, Int.cast_natCast, Int.cast_natCast]

/-- The last bit is fifty-two places behind the leading one, or the lowest. -/
theorem normal_of_leading {significand : Nat} {exponent leading : Int}
    (last : exponent = max (leading - 52) (-1074))
    (least : (2 : Rat) ^ leading ≤ significand * 2 ^ exponent)
    (most : (significand * 2 ^ exponent : Rat) < 2 ^ (leading + 1)) :
    Normal significand exponent := by
  have shifted (places : Nat) :
      (2 : Rat) ^ (exponent + places) = (2 ^ places : Nat) * 2 ^ exponent := by
    rw [zpow_add₀ (by norm_num), zpow_natCast, mul_comm]
    push_cast
    rfl
  refine ⟨?_, ?_, by omega⟩
  · have beyond : (2 : Rat) ^ (leading + 1) ≤ 2 ^ (exponent + (53 : Nat)) :=
      zpow_le_zpow_right₀ (by norm_num) (by omega)
    rw [shifted] at beyond
    have less := lt_of_mul_lt_mul_right (most.trans_le beyond) (two_zpow_pos exponent).le
    exact_mod_cast less
  · by_cases lowest : exponent = -1074
    · exact Or.inr lowest
    · have exact : leading = exponent + (52 : Nat) := by omega
      rw [exact, shifted] at least
      have enough := le_of_mul_le_mul_right least (two_zpow_pos exponent)
      exact Or.inl (by exact_mod_cast enough)

/-- A number of the format that is not zero has a significand and an exponent of
the format. -/
theorem normal_decompose {value : Rat} (nonzero : value ≠ 0)
    (rounded : nearest value = .finite value) :
    Normal (decompose value).1 (decompose value).2 ∧
      scaled (decompose value).1 (decompose value).2 = |value| := by
  have same : scaled (decompose value).1 (decompose value).2 = |value| := by
    unfold nearest at rounded
    rw [if_neg nonzero] at rounded
    dsimp only at rounded
    split at rounded
    · cases rounded
    · have value_eq := Number.finite.inj rounded
      have nonneg : 0 ≤ scaled (decompose value).1 (decompose value).2 := by
        rw [scaled_eq]
        exact mul_nonneg (Nat.cast_nonneg _) (two_zpow_pos _).le
      split at value_eq
      · next negative => rw [abs_of_neg negative, ← neg_eq_iff_eq_neg, value_eq]
      · next positive => rw [abs_of_nonneg (not_lt.mp positive), value_eq]
  have numerator : 0 < value.num.natAbs := Int.natAbs_pos.mpr (Rat.num_ne_zero.mpr nonzero)
  rcases exists_leading numerator value.den_pos with ⟨leading, last, least, most⟩
  rw [natAbs_num_div_den, ← same, scaled_eq] at least most
  exact ⟨normal_of_leading last least most, same⟩

theorem decompose_pos {value : Rat} (nonzero : value ≠ 0)
    (rounded : nearest value = .finite value) : 0 < (decompose value).1 := by
  rw [Nat.pos_iff_ne_zero]
  intro none
  have same := (normal_decompose nonzero rounded).2
  rw [none, scaled_eq, Nat.cast_zero, zero_mul] at same
  exact nonzero (abs_eq_zero.mp same.symm)

/-! ## What reads back -/

/-- The midpoint to the number below, in quarters of the last bit: that number is
nearer where the exponent changes. -/
def lowerQuarters (significand : Nat) (exponent : Int) : Nat :=
  if significand = leadingBit ∧ -1074 < exponent then 4 * significand - 1
  else 4 * significand - 2

/-- A rational lies between the midpoints to the neighbours of a number, or is
one of them where the significand is even. -/
def ReadsAs (significand : Nat) (exponent : Int) (candidate : Rat) : Prop :=
  let below := scaled (lowerQuarters significand exponent) (exponent - 2)
  let above := scaled (4 * significand + 2) (exponent - 2)
  if significand % 2 = 0 then below ≤ candidate ∧ candidate ≤ above
  else below < candidate ∧ candidate < above

theorem readsBack_iff {magnitude candidate : Rat} :
    readsBack magnitude candidate = true ↔
      ReadsAs (decompose magnitude).1 (decompose magnitude).2 candidate := by
  unfold readsBack ReadsAs lowerQuarters
  generalize decompose magnitude = parts
  rcases parts with ⟨significand, exponent⟩
  dsimp only
  by_cases edge : significand = leadingBit ∧ -1074 < exponent
  · split <;> simp [edge]
  · split <;> simp [edge]

section Neighbours

variable {significand other : Nat} {exponent otherExponent : Int} {candidate : Rat}

theorem ReadsAs.lower (reads : ReadsAs significand exponent candidate) :
    scaled (lowerQuarters significand exponent) (exponent - 2) ≤ candidate ∧
      (significand % 2 = 1 →
        scaled (lowerQuarters significand exponent) (exponent - 2) < candidate) := by
  unfold ReadsAs at reads
  split at reads
  · exact ⟨reads.1, by omega⟩
  · exact ⟨reads.1.le, fun _ => reads.1⟩

theorem ReadsAs.upper (reads : ReadsAs significand exponent candidate) :
    candidate ≤ scaled (4 * significand + 2) (exponent - 2) ∧
      (significand % 2 = 1 → candidate < scaled (4 * significand + 2) (exponent - 2)) := by
  unfold ReadsAs at reads
  split at reads
  · exact ⟨reads.2, by omega⟩
  · exact ⟨reads.2.le, fun _ => reads.2⟩

/-- What lies strictly between the midpoints reads back. -/
theorem readsAs_of_between
    (above : scaled (lowerQuarters significand exponent) (exponent - 2) < candidate)
    (below : candidate < scaled (4 * significand + 2) (exponent - 2)) :
    ReadsAs significand exponent candidate := by
  unfold ReadsAs
  split
  · exact ⟨above.le, below.le⟩
  · exact ⟨above, below⟩

/-- In quarters of its last bit a number ends before a greater one begins, or
where it begins if one of the two significands is odd. -/
theorem Normal.quarters_le {shift : Nat} (one : Normal significand exponent)
    (two : Normal other (exponent + shift)) (less : significand < other * 2 ^ shift) :
    4 * significand + 2 ≤ lowerQuarters other (exponent + shift) * 2 ^ shift ∧
      (4 * significand + 2 = lowerQuarters other (exponent + shift) * 2 ^ shift →
        significand % 2 = 1 ∨ other % 2 = 1) := by
  have fits := one.fits
  have full := one.full
  have otherFull := two.full
  have lowest := one.lowest
  cases shift with
  | zero =>
      -- the lower end is the nearer one only where the other number would be below
      have inner : lowerQuarters other (exponent + (0 : Nat)) = 4 * other - 2 := by
        rw [lowerQuarters, if_neg]
        rintro ⟨edge, above⟩
        omega
      rw [inner, pow_zero, mul_one]
      omega
  | succ more =>
      have quarters : lowerQuarters other (exponent + (more + 1 : Nat)) = 4 * leadingBit - 1 ∨
          4 * leadingBit + 2 ≤ lowerQuarters other (exponent + (more + 1 : Nat)) := by
        unfold lowerQuarters
        split <;> omega
      generalize lowerQuarters other (exponent + (more + 1 : Nat)) = lower at quarters ⊢
      have grown := Nat.mul_le_mul_left (2 * lower) (Nat.one_le_two_pow (n := more))
      have doubled : lower * 2 ^ (more + 1) = 2 * lower * 2 ^ more := by ring
      rw [doubled]
      unfold leadingBit at *
      omega

/-- A greater number has no smaller exponent. -/
theorem Normal.exponent_le (one : Normal significand exponent) (two : Normal other otherExponent)
    (less : scaled significand exponent < scaled other otherExponent) :
    exponent ≤ otherExponent := by
  by_contra! smaller
  obtain ⟨shift, apart⟩ : ∃ shift : Nat, exponent = otherExponent + (shift + 1 : Nat) :=
    ⟨(exponent - otherExponent).toNat - 1, by omega⟩
  have full := one.full
  have lowest := two.lowest
  have fits := two.fits
  rw [apart, scaled_add, scaled_lt_scaled_iff] at less
  have grown := Nat.mul_le_mul_left (2 * significand) (Nat.one_le_two_pow (n := shift))
  have doubled : significand * 2 ^ (shift + 1) = 2 * significand * 2 ^ shift := by ring
  omega

/-- Nothing reads back as two numbers. -/
theorem Normal.not_readsAs (one : Normal significand exponent) (two : Normal other otherExponent)
    (less : scaled significand exponent < scaled other otherExponent)
    (near : ReadsAs significand exponent candidate) : ¬ ReadsAs other otherExponent candidate := by
  intro far
  obtain ⟨shift, rfl⟩ : ∃ shift : Nat, otherExponent = exponent + shift :=
    ⟨(otherExponent - exponent).toNat, by have := one.exponent_le two less; omega⟩
  have together : exponent + (shift : Int) - 2 = exponent - 2 + shift := by omega
  rw [scaled_add, scaled_lt_scaled_iff] at less
  rcases one.quarters_le two less with ⟨apart, touching⟩
  rcases near.upper with ⟨upper, strictUpper⟩
  rcases far.lower with ⟨lower, strictLower⟩
  rw [together, scaled_add] at lower strictLower
  rcases apart.lt_or_eq with gap | same
  · exact absurd (lower.trans upper) (not_le.mpr (scaled_lt_scaled_iff.mpr gap))
  · rw [← same] at lower strictLower
    rcases touching same with odd | odd
    · exact absurd (strictUpper odd) (not_lt.mpr lower)
    · exact absurd (strictLower odd) (not_lt.mpr upper)

end Neighbours

end IdlLinker.Number
