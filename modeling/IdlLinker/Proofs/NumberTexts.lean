import IdlLinker.Proofs.Neighbours

/-!
# Texts of numbers

Seventeen digits are enough for a number of the format, so its shortest text
reads back as it, and different numbers have different texts.
-/

namespace IdlLinker.Number

section Shortest

variable {magnitude candidate : Rat} {significand : Nat} {exponent : Int}

/-! ## Grids of decimals -/

/-- A decimal that is found on a grid reads back. -/
theorem readsBack_of_onGrid {point : Int} {count : Nat} {decimal : Decimal}
    (found : onGrid? magnitude point count = some decimal) :
    readsBack magnitude decimal.value = true := by
  unfold onGrid? at found
  simp only [powerOfTen_eq] at found
  split at found
  · next both =>
      rcases Bool.and_eq_true_iff.mp both with ⟨low, high⟩
      cases found
      dsimp only [Decimal.value]
      split
      · exact low
      · exact high
  split at found
  · next low =>
      cases found
      exact low
  split at found
  · next high =>
      cases found
      exact high
  · cases found

/-- A magnitude lies between two neighbours on a grid. -/
theorem between_grid {unit : Rat} (positive : 0 < unit) (nonneg : 0 ≤ magnitude) :
    ((magnitude / unit).floor.toNat : Rat) * unit ≤ magnitude ∧
      magnitude < ((magnitude / unit).floor.toNat + 1 : Nat) * unit := by
  have whole : 0 ≤ (magnitude / unit).floor := by
    rw [Rat.le_floor_iff]
    exact_mod_cast div_nonneg nonneg positive.le
  obtain ⟨low, same⟩ := Int.eq_ofNat_of_zero_le whole
  have least := Rat.floor_le (magnitude / unit)
  have most := Rat.lt_floor_add_one (magnitude / unit)
  rw [same] at least most ⊢
  rw [le_div_iff₀ positive] at least
  rw [div_lt_iff₀ positive] at most
  exact ⟨by exact_mod_cast least, by exact_mod_cast most⟩

theorem lower_lt (exponent : Int) (nonzero : 0 < significand) :
    scaled (lowerQuarters significand exponent) (exponent - 2) < scaled significand exponent := by
  rw [scaled_quarters significand, scaled_lt_scaled_iff]
  unfold lowerQuarters
  split <;> omega

theorem lt_upper (significand : Nat) (exponent : Int) :
    scaled significand exponent < scaled (4 * significand + 2) (exponent - 2) := by
  rw [scaled_quarters significand, scaled_lt_scaled_iff]
  omega

/-- Ten to the sixteenth is more than a significand can be, so seventeen digits
are finer than the distance between the midpoints. -/
theorem Normal.unit_lt (normal : Normal significand exponent) {unit : Rat}
    (fine : unit * 10 ^ 16 ≤ scaled significand exponent) :
    scaled (lowerQuarters significand exponent) (exponent - 2) + unit <
      scaled (4 * significand + 2) (exponent - 2) := by
  have fits := normal.fits
  have quarters : lowerQuarters significand exponent * 10 ^ 16 + 4 * significand <
      (4 * significand + 2) * 10 ^ 16 := by
    unfold lowerQuarters leadingBit at *
    split <;> omega
  have quarter := two_zpow_pos (exponent - 2)
  rw [scaled_quarters, scaled_eq] at fine
  rw [scaled_eq, scaled_eq]
  have cast : (lowerQuarters significand exponent * 10 ^ 16 + (4 * significand : Nat) : Rat) <
      (4 * significand + 2 : Nat) * 10 ^ 16 := by exact_mod_cast quarters
  nlinarith [mul_lt_mul_of_pos_right cast quarter]

/-- A grid that is finer than the numbers has a decimal that reads back: one of
the two neighbours on it lies between the midpoints. -/
theorem exists_onGrid (normal : Normal significand exponent) (nonzero : 0 < significand)
    (parts : decompose magnitude = (significand, exponent))
    (same : scaled significand exponent = magnitude) {point : Int}
    (fine : (10 : Rat) ^ (point - 1) ≤ magnitude) :
    ∃ decimal, onGrid? magnitude point 17 = some decimal := by
  have unitPos : (0 : Rat) < 10 ^ (point - (17 : Nat)) := zpow_pos (by norm_num) _
  have reading (candidate : Rat) :
      readsBack magnitude candidate = true ↔ ReadsAs significand exponent candidate := by
    rw [readsBack_iff, parts]
  have finer : (10 : Rat) ^ (point - (17 : Nat)) * 10 ^ 16 ≤ scaled significand exponent := by
    have together : point - 1 = point - (17 : Nat) + (16 : Nat) := by omega
    rwa [same, ← zpow_natCast, ← zpow_add₀ (by norm_num), ← together]
  have gap := normal.unit_lt finer
  have positive : 0 < magnitude := (zpow_pos (by norm_num) _).trans_le fine
  rcases between_grid unitPos positive.le with ⟨least, most⟩
  have lower := same ▸ lower_lt exponent nonzero
  have upper := same ▸ lt_upper significand exponent
  unfold onGrid?
  simp only [powerOfTen_eq]
  generalize (10 : Rat) ^ (point - (17 : Nat)) = unit at *
  generalize (magnitude / unit).floor.toNat = low at least most ⊢
  have either : readsBack magnitude (low * unit) = true ∨
      readsBack magnitude ((low + 1 : Nat) * unit) = true := by
    rw [reading, reading]
    rcases lt_or_ge (scaled (lowerQuarters significand exponent) (exponent - 2)) (low * unit)
      with above | below
    · exact Or.inl (readsAs_of_between above (least.trans_lt upper))
    · refine Or.inr (readsAs_of_between (lower.trans most) ?_)
      rw [Nat.cast_add_one, add_one_mul]
      linarith
  split
  · exact ⟨_, rfl⟩
  split
  · exact ⟨_, rfl⟩
  split
  · exact ⟨_, rfl⟩
  next lowFails highFails => exact absurd either (not_or.mpr ⟨lowFails, highFails⟩)

/-! ## The shortest decimal -/

theorem ten_pow_le_of_toDigits {value : Nat} (nonzero : 0 < value) :
    10 ^ ((Nat.toDigits 10 value).length - 1) ≤ value := by
  by_contra! more
  have positive : 0 < (Nat.toDigits 10 value).length := Nat.length_toDigits_pos
  by_cases alone : (Nat.toDigits 10 value).length - 1 = 0
  · rw [alone, pow_zero] at more
    omega
  · have shorter := (Nat.length_toDigits_le_iff (by decide) (Nat.pos_of_ne_zero alone)).mpr more
    omega

/-- The digits before some place of a magnitude tell how great it is. -/
theorem ten_zpow_length_le (positive : 0 < magnitude) {places : Nat}
    (enough : (1 : Rat) ≤ magnitude * 10 ^ places) :
    (10 : Rat) ^ (((Nat.toDigits 10
      (magnitude.num.natAbs * Nat.pow 10 places / magnitude.den)).length : Int) - places - 1) ≤
        magnitude := by
  have quotient := natAbs_num_div_den magnitude
  rw [abs_of_pos positive] at quotient
  have scale : ((Nat.pow 10 places : Nat) : Rat) = 10 ^ places := Nat.cast_pow 10 places
  have divisor : (0 : Rat) < magnitude.den := by exact_mod_cast magnitude.den_pos
  generalize Nat.pow 10 places = power at scale ⊢
  have most : ((magnitude.num.natAbs * power / magnitude.den : Nat) : Rat) ≤
      magnitude.num.natAbs * power / magnitude.den := by
    rw [le_div_iff₀ divisor]
    exact_mod_cast Nat.div_mul_le_self _ _
  rw [mul_div_right_comm, quotient, scale] at most
  rw [← scale, ← quotient, div_mul_eq_mul_div, le_div_iff₀ divisor, one_mul] at enough
  have nonzero : 0 < magnitude.num.natAbs * power / magnitude.den :=
    Nat.div_pos (by exact_mod_cast enough) magnitude.den_pos
  generalize magnitude.num.natAbs * power / magnitude.den = whole at nonzero most ⊢
  have digits := ten_pow_le_of_toDigits nonzero
  have length : 0 < (Nat.toDigits 10 whole).length := Nat.length_toDigits_pos
  have together : ((Nat.toDigits 10 whole).length : Int) - places - 1 =
      ((Nat.toDigits 10 whole).length - 1 : Nat) - places := by omega
  rw [together, zpow_sub₀ (by norm_num), zpow_natCast, zpow_natCast, div_le_iff₀ (by positivity)]
  calc (10 : Rat) ^ ((Nat.toDigits 10 whole).length - 1) ≤ whole := by exact_mod_cast digits
    _ ≤ magnitude * 10 ^ places := most

theorem one_le_two_zpow_mul {few many : Nat} (fewer : few ≤ 3 * many) :
    (1 : Rat) ≤ 2 ^ (-(few : Int)) * 10 ^ many := by
  rw [zpow_neg, zpow_natCast, le_inv_mul_iff₀ (by positivity), mul_one]
  calc (2 : Rat) ^ few ≤ 2 ^ (3 * many) := pow_le_pow_right₀ (by norm_num) fewer
    _ = (2 ^ 3) ^ many := pow_mul 2 3 many
    _ ≤ 10 ^ many := pow_le_pow_left₀ (by norm_num) (by norm_num) many

/-- The decimal point stands where the first digit of a number is: none is so
small that four hundred places do not show it. -/
theorem Normal.decimalPoint_le (normal : Normal significand exponent) (nonzero : 0 < significand)
    (same : scaled significand exponent = magnitude) :
    (10 : Rat) ^ (decimalPoint magnitude - 1) ≤ magnitude := by
  have least : (2 : Rat) ^ (-(1074 : Nat) : Int) ≤ magnitude := by
    rw [← same, scaled_eq]
    calc (2 : Rat) ^ (-(1074 : Nat) : Int) ≤ 2 ^ exponent :=
          zpow_le_zpow_right₀ (by norm_num) normal.lowest
      _ ≤ significand * 2 ^ exponent :=
          le_mul_of_one_le_left (two_zpow_pos exponent).le (by exact_mod_cast nonzero)
  obtain ⟨places, four⟩ : ∃ places : Nat, places = 400 := ⟨400, rfl⟩
  have shown := one_le_two_zpow_mul (show 1074 ≤ 3 * places by omega)
  have enough := shown.trans
    (mul_le_mul_of_nonneg_right least (pow_nonneg (by norm_num) places))
  rw [decimalPoint, ← four, show (400 : Int) = places by omega]
  exact ten_zpow_length_le ((two_zpow_pos _).trans_le least) enough

/-- The shortest decimal of a number reads back as the number. -/
theorem readsAs_shortest (normal : Normal significand exponent) (nonzero : 0 < significand)
    (parts : decompose magnitude = (significand, exponent))
    (same : scaled significand exponent = magnitude) :
    ReadsAs significand exponent (shortest magnitude).value := by
  obtain ⟨decimal, found⟩ :=
    exists_onGrid normal nonzero parts same (normal.decimalPoint_le nonzero same)
  unfold shortest
  dsimp only
  rw [Decimal.value_strip]
  cases attempt : ((List.range 17).map (· + 1)).findSome?
    (onGrid? magnitude (decimalPoint magnitude)) with
  | none =>
      have missed := List.findSome?_eq_none_iff.mp attempt 17 (by decide)
      rw [found] at missed
      cases missed
  | some decimal =>
      rcases List.exists_of_findSome?_eq_some attempt with ⟨count, _, here⟩
      have reads := readsBack_iff.mp (readsBack_of_onGrid here)
      rwa [parts] at reads

end Shortest

/-! ## Signs -/

section Texts

variable {value other : Rat}

theorem decompose_neg (value : Rat) : decompose (-value) = decompose value := by
  simp [decompose]

theorem toList_toString_of_nonneg {whole : Int} (nonneg : 0 ≤ whole) :
    (toString whole).toList = Nat.toDigits 10 whole.natAbs := by
  lift whole to Nat using nonneg
  exact Nat.toList_repr

theorem toList_toString_of_neg {whole : Int} (negative : whole < 0) :
    (toString whole).toList = '-' :: Nat.toDigits 10 whole.natAbs := by
  obtain ⟨below, rfl⟩ := Int.eq_negSucc_of_lt_zero negative
  have split : toString (Int.negSucc below) = "-" ++ Nat.repr (below + 1) := rfl
  rw [split, String.toList_append, Nat.toList_repr]
  rfl

/-- The text of a number below zero is a sign and the text of its magnitude. -/
theorem text_of_neg (negative : value < 0) :
    (text (.finite value)).toList = '-' :: (text (.finite (-value))).toList := by
  have positive : 0 < -value := neg_pos.mpr negative
  have below := Rat.num_neg.mpr negative
  unfold text
  simp only [Rat.den_neg_eq_den, Rat.num_neg_eq_neg_num, Int.natAbs_neg, if_neg positive.not_gt,
    if_pos negative]
  split
  · rw [toList_toString_of_neg below, toList_toString_of_nonneg (neg_nonneg.mpr below.le),
      Int.natAbs_neg]
  · rw [String.toList_append]
    rfl

/-- The text of a number that is not negative has the digits of an integer, or is
that of its shortest decimal. -/
theorem text_of_nonneg (nonneg : 0 ≤ value) :
    (∃ whole : Nat, (text (.finite value)).toList = Nat.toDigits 10 whole ∧ value = whole) ∨
      0 < value ∧ text (.finite value) = (shortest value).text layout := by
  unfold text
  dsimp only
  split
  · next exact =>
      simp only [Bool.and_eq_true, decide_eq_true_eq] at exact
      have positive := Rat.num_nonneg.mpr nonneg
      refine Or.inl ⟨value.num.natAbs, toList_toString_of_nonneg positive, ?_⟩
      rw [Nat.cast_natAbs, abs_of_nonneg positive]
      exact (Rat.den_eq_one_iff value |>.mp exact.1).symm
  · next inexact =>
      rw [if_neg nonneg.not_gt]
      refine Or.inr ⟨lt_of_le_of_ne nonneg ?_, rfl⟩
      rintro rfl
      exact inexact (by decide)

/-- The text of a number that is not negative begins with a digit. -/
theorem exists_digit_text_finite (nonneg : 0 ≤ value) :
    ∃ first rest, (text (.finite value)).toList = first :: rest ∧ first.isDigit = true := by
  rcases text_of_nonneg nonneg with ⟨whole, digits, _⟩ | ⟨_, same⟩
  · rw [digits]
    exact exists_digit_toDigits whole
  · rw [same]
    exact exists_digit_text _ _

/-- What the text of a positive number says reads back as the number. -/
theorem readsAs_text (positive : 0 < value) (rounded : nearest value = .finite value) :
    ReadsAs (decompose value).1 (decompose value).2
      (magnitudeOf (text (.finite value)).toList) := by
  rcases normal_decompose positive.ne' rounded with ⟨normal, same⟩
  rw [abs_of_pos positive] at same
  have nonzero := decompose_pos positive.ne' rounded
  rcases text_of_nonneg positive.le with ⟨whole, digits, exact⟩ | ⟨_, shown⟩
  · have total := magnitudeOf_padded whole 0
    rw [List.replicate_zero, List.append_nil, Nat.cast_zero, zpow_zero, mul_one, ← digits,
      ← exact] at total
    have inside := readsAs_of_between (lower_lt _ nonzero) (lt_upper _ (decompose value).2)
    rw [same] at inside
    rwa [total]
  · rw [shown, magnitudeOf_text]
    exact readsAs_shortest normal nonzero rfl same

/-! ## Different numbers -/

theorem nearest_neg (rounded : nearest value = .finite value) :
    nearest (-value) = .finite (-value) := by
  by_cases zero : value = 0
  · rw [zero, neg_zero]
    rfl
  · unfold nearest at rounded ⊢
    rw [if_neg zero] at rounded
    rw [if_neg (neg_ne_zero.mpr zero), decompose_neg]
    dsimp only at rounded ⊢
    split at rounded
    · cases rounded
    · next small =>
        have exact := Number.finite.inj rounded
        rw [if_neg small, Number.finite.injEq]
        rcases lt_or_gt_of_ne zero with negative | positive
        · rw [if_pos negative] at exact
          rw [if_neg (neg_pos.mpr negative).not_gt]
          exact neg_eq_iff_eq_neg.mp exact
        · rw [if_neg positive.not_gt] at exact
          rw [if_pos (neg_neg_of_pos positive), exact]

/-- A greater number of two positive ones has another text. -/
theorem text_ne_of_lt (positive : 0 < value) (less : value < other)
    (rounded : nearest value = .finite value) (otherRounded : nearest other = .finite other) :
    text (.finite value) ≠ text (.finite other) := by
  intro same
  have otherPositive := positive.trans less
  rcases normal_decompose positive.ne' rounded with ⟨normal, exact⟩
  rcases normal_decompose otherPositive.ne' otherRounded with ⟨otherNormal, otherExact⟩
  have reads := readsAs_text positive rounded
  rw [same] at reads
  refine normal.not_readsAs otherNormal ?_ reads (readsAs_text otherPositive otherRounded)
  rwa [exact, otherExact, abs_of_pos positive, abs_of_pos otherPositive]

/-- A number that is not zero has another text than zero. -/
theorem text_ne_zero (positive : 0 < value) (rounded : nearest value = .finite value) :
    text (.finite 0) ≠ text (.finite value) := by
  intro same
  have reads := readsAs_text positive rounded
  have zero : magnitudeOf (text (.finite 0)).toList = 0 := by
    have digits : (text (.finite 0)).toList = ['0'] := by decide
    simpa [digits] using magnitudeOf_padded 0 0
  rw [← same, zero] at reads
  have lower : 0 < lowerQuarters (decompose value).1 (decompose value).2 := by
    have nonzero := decompose_pos positive.ne' rounded
    unfold lowerQuarters
    split <;> omega
  have least := reads.lower.1
  rw [scaled_eq] at least
  exact absurd least (not_le.mpr (mul_pos (by exact_mod_cast lower) (two_zpow_pos _)))

theorem eq_of_text_nonneg (nonneg : 0 ≤ value) (otherNonneg : 0 ≤ other)
    (rounded : nearest value = .finite value) (otherRounded : nearest other = .finite other)
    (same : text (.finite value) = text (.finite other)) : value = other := by
  rcases nonneg.eq_or_lt with rfl | positive
  · rcases otherNonneg.eq_or_lt with rfl | otherPositive
    · rfl
    · exact absurd same (text_ne_zero otherPositive otherRounded)
  · rcases otherNonneg.eq_or_lt with rfl | otherPositive
    · exact absurd same.symm (text_ne_zero positive rounded)
    · rcases lt_trichotomy value other with less | equal | greater
      · exact absurd same (text_ne_of_lt positive less rounded otherRounded)
      · exact equal
      · exact absurd same.symm (text_ne_of_lt otherPositive greater otherRounded rounded)

/-- A text that begins like that of a number below zero is not that of another. -/
theorem text_ne_of_neg (negative : value < 0) (nonneg : 0 ≤ other) :
    text (.finite value) ≠ text (.finite other) := by
  intro same
  have lists := congrArg String.toList same
  rcases exists_digit_text_finite nonneg with ⟨first, rest, cons, digit⟩
  rw [text_of_neg negative, cons] at lists
  rw [← (List.cons.inj lists).1] at digit
  cases digit

theorem eq_of_text_finite (rounded : nearest value = .finite value)
    (otherRounded : nearest other = .finite other)
    (same : text (.finite value) = text (.finite other)) : value = other := by
  rcases lt_or_ge value 0 with negative | nonneg
  · rcases lt_or_ge other 0 with otherNegative | otherNonneg
    · have lists := congrArg String.toList same
      rw [text_of_neg negative, text_of_neg otherNegative] at lists
      have magnitudes := String.toList_injective (List.cons.inj lists).2
      exact neg_injective (eq_of_text_nonneg (neg_nonneg.mpr negative.le)
        (neg_nonneg.mpr otherNegative.le) (nearest_neg rounded) (nearest_neg otherRounded)
        magnitudes)
    · exact absurd same (text_ne_of_neg negative otherNonneg)
  · rcases lt_or_ge other 0 with otherNegative | otherNonneg
    · exact absurd same.symm (text_ne_of_neg otherNegative nonneg)
    · exact eq_of_text_nonneg nonneg otherNonneg rounded otherRounded same

/-- A digit is the first character of the text of a finite number, or the second
one. -/
theorem any_isDigit_text (value : Rat) :
    ((text (.finite value)).toList.take 2).any Char.isDigit = true := by
  rcases lt_or_ge value 0 with negative | nonneg
  · rcases exists_digit_text_finite (neg_nonneg.mpr negative.le) with ⟨first, rest, cons, digit⟩
    simp [text_of_neg negative, cons, digit]
  · rcases exists_digit_text_finite nonneg with ⟨first, rest, cons, digit⟩
    simp [cons, digit]

theorem text_finite_ne {word : String} (wordless : (word.toList.take 2).any Char.isDigit = false) :
    text (.finite value) ≠ word := by
  rintro rfl
  rw [any_isDigit_text] at wordless
  cases wordless

end Texts

theorem text_ne_empty (number : Number) : number.text ≠ "" := by
  cases number with
  | nan => decide
  | infinite negative => cases negative <;> decide
  | finite value => exact text_finite_ne rfl

theorem eq_of_text_infinite : ∀ negative other : Bool,
    text (.infinite negative) = text (.infinite other) → negative = other := by
  decide

/-- Different numbers of the format have different texts. -/
theorem text_injective {one other : Number} (isBinary64 : one.IsBinary64)
    (otherIsBinary64 : other.IsBinary64) (same : one.text = other.text) : one = other := by
  have wordless (negative : Bool) :
      ((text (.infinite negative)).toList.take 2).any Char.isDigit = false := by
    cases negative <;> rfl
  cases one with
  | nan =>
      cases other with
      | nan => rfl
      | infinite negative => cases negative <;> exact absurd same (by decide)
      | finite value => exact absurd same.symm (text_finite_ne rfl)
  | infinite negative =>
      cases other with
      | nan => cases negative <;> exact absurd same (by decide)
      | infinite otherNegative => rw [eq_of_text_infinite negative otherNegative same]
      | finite value => exact absurd same.symm (text_finite_ne (wordless negative))
  | finite value =>
      cases other with
      | nan => exact absurd same (text_finite_ne rfl)
      | infinite negative => exact absurd same (text_finite_ne (wordless negative))
      | finite other => rw [eq_of_text_finite isBinary64 otherIsBinary64 same]

end IdlLinker.Number
