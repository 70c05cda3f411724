/-
This file proves what the text of a rational number says about the number.

Near to a whole number the text is that of the whole number, and otherwise that of the nearest
multiple of the fourth place without the zeros at its end. Either is a decimal literal in its
shortest form, which reads back as a number that is off by half a unit of the fourth place at most.
The sign is that of the number before it is rounded. So a negative number that is rounded to zero,
but is not near enough to zero to be written as a whole number, keeps a minus sign in front of
that zero.
-/

import Mathlib
import LinearProgramming.BigM.Text
import LinearProgramming.Proofs.BigM.Nearness
import LinearProgramming.Proofs.Numeral.Fixed
import LinearProgramming.Proofs.Rounding

namespace LinearProgramming

open Numeral

/-! ### Signs and sizes -/

theorem abs_eq_natAbs_div_den (number : Rat) : |number| = number.num.natAbs / number.den := by
  rw [Rat.abs_def, Rat.divInt_eq_div]
  rfl

theorem signed_abs (number : Rat) : signed (number < 0) |number| = number := by
  unfold signed
  rcases lt_or_ge number 0 with negative | nonneg
  · rw [if_pos (decide_eq_true negative), abs_of_neg negative, neg_neg]
  · rw [if_neg (by simpa using nonneg), abs_of_nonneg nonneg]

/-! ### Whole numbers -/

namespace Numeral.Literal

/-- The literal of a whole number. -/
def ofInt (whole : Int) : Literal := ⟨whole < 0, digits whole.natAbs, none, none⟩

theorem text_ofInt (whole : Int) : (toString whole).toList = (ofInt whole).text := by
  have nothing : (ofInt whole).text = minus (whole < 0) ++ digits whole.natAbs := by
    simp [text, ofInt, fractionText, exponentText]
  rw [nothing]
  cases whole with
  | ofNat size => exact Nat.toList_repr
  | negSucc size =>
    show ("-" ++ Nat.repr (size + 1)).toList = _
    rw [String.toList_append, Nat.toList_repr, decide_eq_true (Int.negSucc_lt_zero size)]
    rfl

theorem value_ofInt (whole : Int) : (ofInt whole).value = whole := by
  have size : (ofInt whole).value = signed (whole < 0) whole.natAbs := by
    show signed (whole < 0)
      (readDigits (readDigits 0 (digits whole.natAbs)) [] * 10 ^ (0 : Int)) = _
    rw [readDigits_digits, zpow_zero, mul_one]
    rfl
  rw [size, Nat.cast_natAbs, Int.cast_abs]
  simpa using signed_abs (whole : Rat)

theorem isShortest_ofInt (whole : Int) : (ofInt whole).IsShortest where
  whole _ := isDigit_of_mem_digits
  places _ absent := nomatch absent
  exponent _ absent := nomatch absent
  hasDigit absent := (leading_digits _).1 (List.append_eq_nil_iff.1 absent).1
  leading := leading_digits _
  trailing _ absent := nomatch absent
  noExponent := rfl

end Numeral.Literal

/-! ### The two forms of a text -/

theorem epsilon_eq : (Scalar.epsilon : Rat) = 1 / 1000000000 := by decide +kernel

/-- A number is written as a whole number near to it, or with places after the point. -/
theorem numberText_cases (number : Rat) :
    (∃ whole : Int, |(whole : Rat) - number| ≤ Scalar.epsilon ∧
        numberText number = toString whole) ∨
      Scalar.epsilon < |number| ∧ numberText number =
        trimmed (fixedText 4 (number < 0) number.num.natAbs number.den) := by
  obtain ⟨whole, rounded, _⟩ := exists_whole_round number
  have text : numberText number =
      if |number| ≤ Scalar.epsilon then "0"
      else if |number - whole| ≤ Scalar.epsilon then toString (whole : Rat).floor
      else trimmed (fixedText 4 (number < 0) number.num.natAbs number.den) := by
    rw [← Scalar.abs_eq, ← Scalar.abs_eq, ← rounded]
    rfl
  rw [text]
  by_cases zero : |number| ≤ Scalar.epsilon
  · rw [if_pos zero]
    refine Or.inl ⟨0, ?_, rfl⟩
    simpa using zero
  rw [if_neg zero]
  by_cases near : |number - whole| ≤ Scalar.epsilon
  · rw [if_pos near, Rat.floor_intCast]
    exact Or.inl ⟨whole, by rwa [abs_sub_comm], rfl⟩
  · rw [if_neg near]
    exact Or.inr ⟨not_le.1 zero, rfl⟩

/-- What a literal has to be for the text of a number, and when it is a zero with a minus sign. -/
structure Numeral.Literal.Describes (literal : Literal) (number : Rat) : Prop
    extends literal.IsShortest where
  places_le : literal.places.length ≤ 4
  near : |literal.value - number| ≤ 1 / 20000
  lost : literal.negative = true ∧ literal.value = 0 ↔
    -(1 / 20000) ≤ number ∧ number < -Scalar.epsilon

/-- The literal of a whole number that is near enough. The numbers near to zero are not among those
that are rounded to zero by their places. -/
theorem describes_ofInt {whole : Int} {number : Rat}
    (near : |(whole : Rat) - number| ≤ Scalar.epsilon) :
    (Literal.ofInt whole).Describes number := by
  rw [epsilon_eq] at near
  obtain ⟨below, above⟩ := abs_le.1 near
  refine ⟨Literal.isShortest_ofInt whole, Nat.zero_le 4, ?_, ?_⟩
  · rw [Literal.value_ofInt]
    linarith
  · rw [Literal.value_ofInt, epsilon_eq]
    refine iff_of_false (fun ⟨negative, zero⟩ => ?_) fun ⟨low, high⟩ => ?_
    · exact (of_decide_eq_true negative).ne (Int.cast_eq_zero.1 zero)
    · -- No whole number lies between minus one and zero.
      have high : whole < 0 := by exact_mod_cast (by linarith : (whole : Rat) < 0)
      have low : -1 < whole := by exact_mod_cast (by linarith : (-1 : Rat) < whole)
      omega

/-- Every number is described by the literal that its text spells. -/
theorem exists_describes (number : Rat) :
    ∃ literal : Literal, numberText number = String.ofList literal.text ∧
      literal.Describes number := by
  rcases numberText_cases number with ⟨whole, near, text⟩ | ⟨visible, text⟩
  · refine ⟨.ofInt whole, ?_, describes_ofInt near⟩
    rw [text, ← Literal.text_ofInt, String.ofList_toList]
  · obtain ⟨literal, spelled, shortest, negative, short, near, zero⟩ :=
      exists_trimmed_fixedText (by decide : 0 < 4) number.den_pos (number < 0) number.num.natAbs
    refine ⟨literal, text.trans spelled, shortest, short, ?_, ?_⟩
    · rw [← abs_eq_natAbs_div_den, signed_abs] at near
      exact near.trans (by norm_num)
    · have small : literal.value = 0 ↔ |number| ≤ 1 / 20000 := by
        rw [zero, abs_eq_natAbs_div_den,
          div_le_div_iff₀ (Nat.cast_pos.2 number.den_pos) (by norm_num)]
        norm_cast
        omega
      rw [negative, decide_eq_true_iff, small]
      constructor
      · rintro ⟨below, size⟩
        rw [abs_of_neg below] at size visible
        constructor <;> linarith
      · rintro ⟨low, high⟩
        have below : number < 0 := by
          rw [epsilon_eq] at high
          linarith
        rw [abs_of_neg below]
        constructor <;> linarith

/-- Every number is written as a literal in its shortest form with four places at most, which
reads back as a number that is off by half a unit of the fourth place at most. The text is `-0`
exactly for the negative numbers that are rounded to zero and are not near enough to zero to be
written as a whole number; everywhere else a minus sign stands exactly in front of negative
numbers. -/
theorem numberText_isShortest (number : Rat) :
    ∃ literal : Literal, (numberText number).toList = literal.text ∧
      decimal? (numberText number).toList = some literal ∧ literal.IsShortest ∧
      literal.places.length ≤ 4 ∧ |literal.value - number| ≤ 1 / 20000 ∧
      (numberText number = "-0" ↔ -(1 / 20000) ≤ number ∧ number < -Scalar.epsilon) ∧
      (numberText number ≠ "-0" →
        ((numberText number).toList.head? = some '-' ↔ literal.value < 0)) := by
  obtain ⟨literal, spelled, described⟩ := exists_describes number
  have shortest := described.toIsShortest
  have text : (numberText number).toList = literal.text := by
    rw [spelled, String.toList_ofList]
  have isLost : numberText number = "-0" ↔ literal.text = ['-', '0'] := by
    rw [← text]
    exact String.toList_inj.symm
  refine ⟨literal, text, ?_, shortest, described.places_le, described.near, ?_,
    fun visible => ?_⟩
  · rw [text, shortest.decimal?_text]
  · rw [isLost, shortest.text_eq_iff, described.lost]
  · rw [text]
    exact shortest.head?_text_iff_value_neg (mt isLost.2 visible)

/-- A negative number whose text is `-0`: the text starts with a minus sign, and it reads back as
zero. -/
theorem numberText_of_smallNegative :
    numberText (-1 / 32768 : Rat) = "-0" ∧
      (decimal? (numberText (-1 / 32768 : Rat)).toList).map Literal.value = some 0 := by
  decide +kernel

end LinearProgramming
