import Mathlib.Data.List.Basic
import IdlLinker.Number.Shortest

/-!
# Characters of numbers

The texts of numbers are made of few characters, so a separator that is none of
them stands in no number.
-/

namespace IdlLinker

namespace Number

/-- A character occurs in texts of numbers. -/
def isTextCharacter (character : Char) : Bool :=
  character.isDigit || ".-+eNaInfity".toList.contains character

section Foreign

variable {character : Char} (foreign : isTextCharacter character = false)

include foreign

theorem ne_of_isTextCharacter {other : Char} (isText : isTextCharacter other = true) :
    character ≠ other := by
  rintro rfl
  rw [foreign] at isText
  cases isText

theorem not_mem_toDigits (value : Nat) : character ∉ Nat.toDigits 10 value := by
  intro member
  rw [isTextCharacter, Nat.isDigit_of_mem_toDigits (by decide) (by decide) member] at foreign
  cases foreign

theorem not_mem_decimal (decimal : Decimal) (layout : Layout) :
    character ∉ (decimal.text layout).toList := by
  have digits := not_mem_toDigits foreign
  have front (count : Nat) : character ∉ (Nat.toDigits 10 decimal.digits).take count :=
    fun member => digits _ (List.mem_of_mem_take member)
  have back (count : Nat) : character ∉ (Nat.toDigits 10 decimal.digits).drop count :=
    fun member => digits _ (List.mem_of_mem_drop member)
  have tail : character ∉ (Nat.toDigits 10 decimal.digits).tail :=
    fun member => digits _ (List.mem_of_mem_tail member)
  have zero : character ≠ '0' := ne_of_isTextCharacter foreign (by decide)
  have point : character ≠ '.' := ne_of_isTextCharacter foreign (by decide)
  have letter : character ≠ 'e' := ne_of_isTextCharacter foreign (by decide)
  have minus : character ≠ '-' := ne_of_isTextCharacter foreign (by decide)
  have plus : character ≠ '+' := ne_of_isTextCharacter foreign (by decide)
  unfold Decimal.text
  dsimp only
  split
  · simp [digits, zero]
  · split
    · simp [front, back, point]
    · split
      · simp [digits, zero, point]
      · split <;> split <;> simp [front, tail, digits, point, letter, minus, plus]

/-- Texts of numbers have few characters. -/
theorem not_mem_text (number : Number) : character ∉ number.text.toList := by
  have digits := not_mem_toDigits foreign
  have minus : character ≠ '-' := ne_of_isTextCharacter foreign (by decide)
  cases number with
  | nan =>
      intro member
      exact ne_of_isTextCharacter foreign
        (List.all_eq_true.mp (show "NaN".toList.all isTextCharacter = true by decide) _ member) rfl
  | infinite negative =>
      intro member
      have each : ∀ negative, (text (.infinite negative)).toList.all isTextCharacter = true := by
        decide
      exact ne_of_isTextCharacter foreign (List.all_eq_true.mp (each negative) _ member) rfl
  | finite value =>
      unfold Number.text
      dsimp only
      split
      · cases value.num <;> simp [toString, Int.repr, digits, minus]
      · split
        · simp [not_mem_decimal foreign, minus]
        · exact not_mem_decimal foreign _ _

/-- Nor has the text of a number that may be missing. -/
theorem not_mem_optional (number : Option Number) :
    character ∉ ((number.map text).getD "").toList := by
  cases number with
  | none => exact List.not_mem_nil
  | some number => exact not_mem_text foreign number

end Foreign

end Number

end IdlLinker
