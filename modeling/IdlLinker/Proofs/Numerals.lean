import IdlLinker.Number.Reading
import Mathlib.Data.List.TakeWhile
import Mathlib.Tactic.Ring
import Mathlib.Tactic.NormNum

/-!
# Texts of decimals

The text of a decimal says the rational that the decimal is, wherever its layout
puts the point.
-/

namespace IdlLinker.Number

/-! ## Powers -/

theorem powerOfTen_eq (exponent : Int) : powerOfTen exponent = (10 : Rat) ^ exponent := by
  unfold powerOfTen
  split
  · next up =>
      lift exponent to Nat using up
      simp
  · next down =>
      obtain ⟨size, rfl⟩ := Int.exists_eq_neg_ofNat (not_le.mp down).le
      rw [Rat.mkRat_eq_div]
      simp

theorem scaled_eq (significand : Nat) (exponent : Int) :
    scaled significand exponent = significand * (2 : Rat) ^ exponent := by
  unfold scaled
  split
  · next up =>
      lift exponent to Nat using up
      simp
  · next down =>
      obtain ⟨size, rfl⟩ := Int.exists_eq_neg_ofNat (not_le.mp down).le
      rw [Rat.mkRat_eq_div]
      simp [div_eq_mul_inv]

theorem Decimal.value_strip (decimal : Decimal) : decimal.strip.value = decimal.value := by
  fun_induction Decimal.strip decimal with
  | case1 decimal zero => rfl
  | case2 decimal nonzero round hypothesis =>
      rw [hypothesis]
      have whole : (decimal.digits : Rat) = (decimal.digits / 10 : Nat) * 10 := by
        exact_mod_cast (Nat.div_mul_cancel (Nat.dvd_of_mod_eq_zero round)).symm
      rw [Decimal.value, Decimal.value, whole, zpow_add_one₀ (by norm_num)]
      ring
  | case3 decimal nonzero sharp => rfl

/-! ## Rows of digits -/

section Rows

variable {cut : Char} {whole fraction characters rest : List Char}

theorem all_ne_of_not_mem (absent : cut ∉ characters) :
    ∀ character ∈ characters, decide (character ≠ cut) = true := by
  intro character member
  exact decide_eq_true (ne_of_mem_of_not_mem member absent)

theorem takeWhile_ne_self (absent : cut ∉ characters) :
    characters.takeWhile (· ≠ cut) = characters :=
  List.takeWhile_eq_self_iff.mpr (all_ne_of_not_mem absent)

theorem dropWhile_ne_self (absent : cut ∉ characters) :
    characters.dropWhile (· ≠ cut) = [] :=
  List.dropWhile_eq_nil_iff.mpr (all_ne_of_not_mem absent)

theorem takeWhile_ne_append_cons (absent : cut ∉ characters) :
    (characters ++ cut :: rest).takeWhile (· ≠ cut) = characters := by
  rw [List.takeWhile_append_of_pos (all_ne_of_not_mem absent),
    List.takeWhile_cons_of_neg (by simp), List.append_nil]

theorem dropWhile_ne_append_cons (absent : cut ∉ characters) :
    (characters ++ cut :: rest).dropWhile (· ≠ cut) = cut :: rest := by
  rw [List.dropWhile_append_of_pos (all_ne_of_not_mem absent),
    List.dropWhile_cons_of_neg (by simp)]

theorem mantissaOf_whole (pointless : '.' ∉ whole) :
    mantissaOf whole = Nat.ofDigitChars 10 whole 0 := by
  unfold mantissaOf
  rw [takeWhile_ne_self pointless, dropWhile_ne_self pointless]
  simp

theorem mantissaOf_pointed (pointless : '.' ∉ whole) :
    mantissaOf (whole ++ '.' :: fraction) =
      Nat.ofDigitChars 10 (whole ++ fraction) 0 * (10 : Rat) ^ (-(fraction.length : Int)) := by
  unfold mantissaOf
  rw [takeWhile_ne_append_cons pointless, dropWhile_ne_append_cons pointless, List.tail_cons]

theorem magnitudeOf_positional (positional : 'e' ∉ characters) :
    magnitudeOf characters = mantissaOf characters := by
  unfold magnitudeOf
  rw [takeWhile_ne_self positional, dropWhile_ne_self positional]
  simp [exponentOf]

theorem magnitudeOf_scaled (positional : 'e' ∉ characters) :
    magnitudeOf (characters ++ 'e' :: rest) =
      mantissaOf characters * (10 : Rat) ^ exponentOf ('e' :: rest) := by
  unfold magnitudeOf
  rw [takeWhile_ne_append_cons positional, dropWhile_ne_append_cons positional]

end Rows

/-! ## Layouts -/

section Layouts

variable {value : Nat} {character : Char}

/-- The digits of a number are digits. -/
theorem not_mem_toDigits_of_not_isDigit (other : character.isDigit = false) :
    character ∉ Nat.toDigits 10 value := by
  intro member
  rw [Nat.isDigit_of_mem_toDigits (by decide) (by decide) member] at other
  cases other

@[simp]
theorem ofDigitChars_toDigits (value : Nat) :
    Nat.ofDigitChars 10 (Nat.toDigits 10 value) 0 = value :=
  Nat.ofDigitChars_ten_toDigits

theorem exponentOf_signed (power : Int) :
    exponentOf ('e' :: (if power < 0 then '-' else '+') :: Nat.toDigits 10 power.natAbs) =
      power := by
  split
  · next negative => simp [exponentOf, abs_of_neg negative]
  · next positive => simp [exponentOf, abs_of_nonneg (not_lt.mp positive)]

/-- Zeros behind digits multiply by a power of ten. -/
theorem magnitudeOf_padded (value zeros : Nat) :
    magnitudeOf (Nat.toDigits 10 value ++ List.replicate zeros '0') =
      value * (10 : Rat) ^ (zeros : Int) := by
  have plain {character : Char} (other : character.isDigit = false) (zero : character ≠ '0') :
      character ∉ Nat.toDigits 10 value ++ List.replicate zeros '0' := by
    rw [List.mem_append, not_or]
    exact ⟨not_mem_toDigits_of_not_isDigit other,
      fun member => zero (List.eq_of_mem_replicate member)⟩
  rw [magnitudeOf_positional (plain (by decide) (by decide)),
    mantissaOf_whole (plain (by decide) (by decide)), Nat.ofDigitChars_append,
    ofDigitChars_toDigits, Nat.ofDigitChars_replicate_zero]
  push_cast
  rw [zpow_natCast]
  ring

/-- A point among digits divides by a power of ten. -/
theorem mantissaOf_divided (value count : Nat) :
    mantissaOf ((Nat.toDigits 10 value).take count ++ '.' :: (Nat.toDigits 10 value).drop count) =
      value * (10 : Rat) ^ (-((Nat.toDigits 10 value).length - count : Nat) : Int) := by
  have pointless : '.' ∉ (Nat.toDigits 10 value).take count :=
    fun member => not_mem_toDigits_of_not_isDigit (by decide) (List.mem_of_mem_take member)
  rw [mantissaOf_pointed pointless, List.take_append_drop, ofDigitChars_toDigits, List.length_drop]

/-- A point behind the first digit is written where there are others. -/
theorem mantissaOf_leading (value : Nat) :
    mantissaOf ((Nat.toDigits 10 value).take 1 ++
        if ((Nat.toDigits 10 value).drop 1).isEmpty then []
        else '.' :: (Nat.toDigits 10 value).drop 1) =
      value * (10 : Rat) ^ (-((Nat.toDigits 10 value).length - 1 : Nat) : Int) := by
  split
  · next alone =>
      have short : (Nat.toDigits 10 value).length ≤ 1 :=
        List.drop_eq_nil_iff.mp (List.isEmpty_iff.mp alone)
      have pointless : '.' ∉ Nat.toDigits 10 value := not_mem_toDigits_of_not_isDigit (by decide)
      rw [List.append_nil, List.take_of_length_le short, mantissaOf_whole pointless,
        ofDigitChars_toDigits, Nat.sub_eq_zero_of_le short]
      simp
  · exact mantissaOf_divided value 1

/-- Zeros between a point and digits divide by a power of ten more. -/
theorem magnitudeOf_shifted (value zeros : Nat) :
    magnitudeOf ('0' :: '.' :: List.replicate zeros '0' ++ Nat.toDigits 10 value) =
      value * (10 : Rat) ^ (-(zeros + (Nat.toDigits 10 value).length : Nat) : Int) := by
  have positional : 'e' ∉ ['0'] ++ '.' :: (List.replicate zeros '0' ++ Nat.toDigits 10 value) := by
    have letter : 'e' ∉ Nat.toDigits 10 value := not_mem_toDigits_of_not_isDigit (by decide)
    simp [letter]
  have cut : '0' :: '.' :: List.replicate zeros '0' ++ Nat.toDigits 10 value =
      ['0'] ++ '.' :: (List.replicate zeros '0' ++ Nat.toDigits 10 value) := rfl
  have digits : Nat.ofDigitChars 10 (['0'] ++ (List.replicate zeros '0' ++ Nat.toDigits 10 value))
      0 = value := by
    rw [Nat.ofDigitChars_append, Nat.ofDigitChars_append, Nat.ofDigitChars_replicate_zero]
    simp [Nat.ofDigitChars_cons]
  rw [cut, magnitudeOf_positional positional, mantissaOf_pointed (by decide), digits,
    List.length_append, List.length_replicate]

/-- The text of a decimal says what the decimal is, under every layout. -/
theorem magnitudeOf_text (decimal : Decimal) (layout : Layout) :
    magnitudeOf (decimal.text layout).toList = decimal.value := by
  have letterless : 'e' ∉ Nat.toDigits 10 decimal.digits :=
    not_mem_toDigits_of_not_isDigit (by decide)
  have front (count : Nat) : 'e' ∉ (Nat.toDigits 10 decimal.digits).take count :=
    fun member => letterless (List.mem_of_mem_take member)
  have back (count : Nat) : 'e' ∉ (Nat.toDigits 10 decimal.digits).drop count :=
    fun member => letterless (List.mem_of_mem_drop member)
  unfold Decimal.text Decimal.value
  dsimp only
  split
  · next whole =>
      simp only [Bool.and_eq_true, decide_eq_true_eq] at whole
      rw [String.toList_ofList, magnitudeOf_padded]
      congr 2
      omega
  next broken =>
  simp only [Bool.and_eq_true, decide_eq_true_eq, not_and] at broken
  split
  · next among =>
      simp only [Bool.and_eq_true, decide_eq_true_eq] at among
      rw [String.toList_ofList, magnitudeOf_positional, mantissaOf_divided]
      · congr 2
        omega
      · simp [front, back]
  split
  · next behind =>
      simp only [Bool.and_eq_true, decide_eq_true_eq] at behind
      rw [String.toList_ofList, magnitudeOf_shifted]
      congr 2
      omega
  · have positive : 0 < (Nat.toDigits 10 decimal.digits).length := Nat.length_toDigits_pos
    rw [String.toList_ofList, magnitudeOf_scaled, exponentOf_signed, mantissaOf_leading,
      mul_assoc, ← zpow_add₀ (by norm_num)]
    · congr 2
      omega
    · rw [List.mem_append, not_or]
      refine ⟨front 1, ?_⟩
      split
      · exact List.not_mem_nil
      · exact List.not_mem_cons_of_ne_of_not_mem (by decide) (back 1)

/-- The digits of a number begin with a digit. -/
theorem exists_digit_toDigits (value : Nat) :
    ∃ first rest, Nat.toDigits 10 value = first :: rest ∧ first.isDigit = true := by
  obtain ⟨first, rest, digits⟩ :=
    List.exists_cons_of_ne_nil (Nat.toDigits_ne_nil (n := value) (b := 10))
  refine ⟨first, rest, digits, ?_⟩
  apply Nat.isDigit_of_mem_toDigits (b := 10) (n := value) (by decide) (by decide)
  rw [digits]
  exact List.mem_cons_self

/-- The text of a decimal begins with a digit. -/
theorem exists_digit_text (decimal : Decimal) (layout : Layout) :
    ∃ first rest, (decimal.text layout).toList = first :: rest ∧ first.isDigit = true := by
  obtain ⟨first, others, digits, digit⟩ := exists_digit_toDigits decimal.digits
  unfold Decimal.text
  rw [digits]
  dsimp only
  split
  · exact ⟨first, _, by rw [String.toList_ofList, List.cons_append], digit⟩
  split
  · next among =>
      simp only [Bool.and_eq_true, decide_eq_true_eq] at among
      obtain ⟨more, point⟩ := Nat.exists_eq_add_of_lt (Int.lt_toNat.mpr among.1)
      rw [point, Nat.zero_add]
      exact ⟨first, _, by rw [String.toList_ofList, List.take_succ_cons, List.cons_append], digit⟩
  split
  · exact ⟨'0', _, by rw [String.toList_ofList, List.cons_append], by decide⟩
  · exact ⟨first, _, by rw [String.toList_ofList]; rfl, digit⟩

end Layouts

end IdlLinker.Number
