/-
This file proves what decimal text with a fixed number of places says about a fraction.

The text is that of the nearest multiple of the last place, so what it denotes is off by half a
unit of that place at most. Cutting off the zeros at its end changes nothing about the number and
leaves the shortest form of it, provided that there is a point: the zeros of a whole number would
be cut off as well.
-/

import LinearProgramming.Numeral.Fixed
import LinearProgramming.Proofs.Numeral.Literal

namespace LinearProgramming.Numeral

/-! ### Rounding to the nearest whole number -/

section Rounding

variable {denominator : Nat}

/-- The quotient is kept when the remainder is less than half of the denominator, and the next
number is taken when it is more. A half goes to the even one of the two. -/
theorem roundHalfEven_cases (numerator : Nat) (positive : 0 < denominator) :
    ∃ quotient remainder, numerator = quotient * denominator + remainder ∧
      remainder < denominator ∧
      (roundHalfEven numerator denominator = quotient ∧
          (2 * remainder < denominator ∨ 2 * remainder = denominator ∧ quotient % 2 = 0) ∨
        roundHalfEven numerator denominator = quotient + 1 ∧
          (denominator < 2 * remainder ∨ 2 * remainder = denominator ∧ quotient % 2 = 1)) := by
  refine ⟨numerator / denominator, numerator % denominator, (Nat.div_add_mod' _ _).symm,
    Nat.mod_lt numerator positive, ?_⟩
  unfold roundHalfEven
  dsimp only
  split
  · next down => exact Or.inl ⟨rfl, down⟩
  · next up => exact Or.inr ⟨rfl, by omega⟩

theorem abs_roundHalfEven_sub_le (numerator : Nat) (positive : 0 < denominator) :
    |(roundHalfEven numerator denominator : Rat) - numerator / denominator| ≤ 1 / 2 := by
  have cast : (0 : Rat) < denominator := Nat.cast_pos.2 positive
  obtain ⟨quotient, remainder, rfl, below, rounded⟩ := roundHalfEven_cases numerator positive
  have fraction : ((quotient * denominator + remainder : Nat) : Rat) / denominator =
      quotient + remainder / denominator := by
    push_cast
    field_simp
  have nonneg : (0 : Rat) ≤ remainder / denominator := by positivity
  have whole : (remainder : Rat) / denominator < 1 := (div_lt_one cast).2 (Nat.cast_lt.2 below)
  rw [fraction, abs_le]
  rcases rounded with ⟨same, near⟩ | ⟨next, near⟩
  · have half : (remainder : Rat) / denominator ≤ 1 / 2 := by
      rw [div_le_div_iff₀ cast two_pos]
      exact_mod_cast (by omega : remainder * 2 ≤ 1 * denominator)
    rw [same]
    constructor <;> linarith
  · have half : 1 / 2 ≤ (remainder : Rat) / denominator := by
      rw [div_le_div_iff₀ two_pos cast]
      exact_mod_cast (by omega : 1 * denominator ≤ remainder * 2)
    rw [next]
    push_cast
    constructor <;> linarith

/-- Half a unit and less is rounded to zero. -/
theorem roundHalfEven_eq_zero_iff (numerator : Nat) (positive : 0 < denominator) :
    roundHalfEven numerator denominator = 0 ↔ 2 * numerator ≤ denominator := by
  obtain ⟨quotient, remainder, same, below, rounded⟩ := roundHalfEven_cases numerator positive
  rcases quotient.eq_zero_or_pos with rfl | nonzero
  · omega
  · have large : denominator ≤ quotient * denominator := Nat.le_mul_of_pos_left _ nonzero
    omega

end Rounding

/-! ### Digits -/

theorem isDigit_of_mem_digits {number : Nat} {character : Char}
    (member : character ∈ digits number) : character.isDigit = true :=
  Nat.isDigit_of_mem_toDigits (by decide) (by decide) member

theorem readDigits_digits (number : Nat) : readDigits 0 (digits number) = number :=
  Nat.ofDigitChars_ten_toDigits

/-- No zero stands in front of other digits. -/
theorem leading_digits (number : Nat) :
    digits number ≠ [] ∧ ((digits number).head? = some '0' → digits number = ['0']) := by
  refine ⟨Nat.toDigits_ne_nil, fun leading => ?_⟩
  induction number using Nat.strongRecOn with
  | ind number inductionHypothesis =>
    unfold digits at leading inductionHypothesis ⊢
    rw [Nat.toDigits_eq_if (by decide)] at leading ⊢
    split at leading
    · next single => rw [if_pos single, Option.some.inj leading]
    · next several =>
      rw [List.head?_append_of_ne_nil _ Nat.toDigits_ne_nil] at leading
      -- The digits in front are those of a tenth, which is not zero.
      have front := inductionHypothesis (number / 10) (by omega) leading
      have value := readDigits_digits (number / 10)
      rw [digits, front] at value
      exact absurd value.symm (by show number / 10 ≠ 0; omega)

theorem isDigit_of_mem_padded {places : Nat} {characters : List Char} {character : Char}
    (areDigits : ∀ character ∈ characters, character.isDigit = true)
    (member : character ∈ padded places characters) : character.isDigit = true := by
  rcases List.mem_append.1 member with filling | digit
  · rw [(List.mem_replicate.1 filling).2]
    rfl
  · exact areDigits character digit

theorem length_padded {places number : Nat} (positive : 0 < places)
    (fits : number < 10 ^ places) : (padded places (digits number)).length = places := by
  have short : (digits number).length ≤ places :=
    (Nat.length_toDigits_le_iff (by decide) positive).2 fits
  rw [padded, List.length_append, List.length_replicate]
  omega

/-- Zeros in front of digits count for nothing, and digits before them count by their number. -/
theorem readDigits_padded {places number : Nat} (start : Nat) (positive : 0 < places)
    (fits : number < 10 ^ places) :
    readDigits start (padded places (digits number)) = 10 ^ places * start + number := by
  have alone : readDigits 0 (padded places (digits number)) = number := by
    rw [readDigits_eq, padded, Nat.ofDigitChars_append, Nat.ofDigitChars_replicate_zero,
      Nat.mul_zero]
    exact readDigits_digits number
  rw [readDigits_eq, Nat.ofDigitChars_eq_ofDigitChars_zero, length_padded positive fits,
    ← readDigits_eq, alone]

/-! ### Trailing zeros -/

/-- Characters end in some number of copies of a character, and before these in another one. -/
theorem exists_append_replicate (characters : List Char) (last : Char) :
    ∃ kept count, characters = kept ++ List.replicate count last ∧ kept.getLast? ≠ some last := by
  induction characters using List.reverseRecOn with
  | nil => exact ⟨[], 0, rfl, nofun⟩
  | append_singleton others final inductionHypothesis =>
    by_cases same : final = last
    · obtain ⟨kept, count, rfl, ends⟩ := inductionHypothesis
      refine ⟨kept, count + 1, ?_, ends⟩
      rw [same, List.append_assoc, ← List.replicate_succ']
    · exact ⟨others ++ [final], 0, (List.append_nil _).symm, by simpa using same⟩

/-- These copies are what is cut off. -/
theorem dropTrailing_append_replicate {kept : List Char} {last : Char} (count : Nat)
    (ends : kept.getLast? ≠ some last) :
    dropTrailing last (kept ++ List.replicate count last) = kept := by
  have copies : ∀ character ∈ List.replicate count last, (character == last) = true :=
    fun character member => beq_iff_eq.2 (List.mem_replicate.1 member).2
  rw [dropTrailing, List.reverse_append, List.reverse_replicate,
    List.dropWhile_append_of_pos copies]
  refine List.rdropWhile_eq_self_iff.2 fun nonempty isLast => ends ?_
  rw [List.getLast?_eq_some_getLast nonempty, eq_of_beq isLast]

/-- Text that ends in digits does not end in anything else. -/
theorem getLast?_append_ne {front behind : List Char} {other : Char}
    (areDigits : ∀ character ∈ behind, character.isDigit = true) (nonempty : behind ≠ [])
    (noDigit : other.isDigit = false) : (front ++ behind).getLast? ≠ some other := by
  intro ends
  rw [List.getLast?_append_of_ne_nil _ nonempty] at ends
  exact Bool.false_ne_true (noDigit ▸ areDigits other (List.mem_of_getLast? ends))

/-- Zeros after a point are cut off, and so is the point when nothing else is behind it. Characters
in front of the point stay, zeros too. -/
theorem dropTrailing_point {front places : List Char}
    (areDigits : ∀ character ∈ places, character.isDigit = true)
    (noPoint : front.getLast? ≠ some '.') :
    dropTrailing '.' (dropTrailing '0' (front ++ '.' :: places)) =
      match dropTrailing '0' places with
      | [] => front
      | kept => front ++ '.' :: kept := by
  obtain ⟨kept, count, rfl, noZero⟩ := exists_append_replicate places '0'
  have withoutZeros : dropTrailing '0' (front ++ '.' :: (kept ++ List.replicate count '0')) =
      front ++ '.' :: kept := by
    rw [← List.cons_append, ← List.append_assoc]
    refine dropTrailing_append_replicate count ?_
    rw [List.getLast?_append_of_ne_nil _ (List.cons_ne_nil _ _)]
    cases kept with
    | nil => decide
    | cons first others => exact noZero
  rw [withoutZeros, dropTrailing_append_replicate count noZero]
  cases kept with
  | nil => exact dropTrailing_append_replicate 1 noPoint
  | cons first others =>
    have lastDigit : (front ++ ['.'] ++ first :: others).getLast? ≠ some '.' :=
      getLast?_append_ne (fun character member => areDigits character
        (List.mem_append_left _ member)) (List.cons_ne_nil _ _) rfl
    have whole := dropTrailing_append_replicate 0 lastDigit
    rwa [List.replicate_zero, List.append_nil, List.append_assoc] at whole

/-- Zeros after digits multiply their number. -/
theorem readDigits_append_replicate (start : Nat) (characters : List Char) (count : Nat) :
    readDigits start (characters ++ List.replicate count '0') =
      10 ^ count * readDigits start characters := by
  rw [readDigits_eq, Nat.ofDigitChars_append, Nat.ofDigitChars_replicate_zero]
  rfl

namespace Literal

/-- A literal without the zeros at the end of its places, and without the point if no place is
left. -/
def trim (literal : Literal) : Literal :=
  { literal with
    fraction := match dropTrailing '0' literal.places with
      | [] => none
      | kept => some kept }

variable {literal : Literal}

theorem places_trim : literal.trim.places = dropTrailing '0' literal.places := by
  unfold Literal.places trim
  dsimp only
  split
  · next none => exact none.symm
  · rfl

/-- Zeros at the end of the places do not change the number. -/
theorem value_trim : literal.trim.value = literal.value := by
  obtain ⟨kept, count, split, ends⟩ := exists_append_replicate literal.places '0'
  have moved : (10 : Rat) ^ (literal.exponentValue - (kept.length : Int)) =
      10 ^ count * 10 ^ (literal.exponentValue - ((kept.length + count : Nat) : Int)) := by
    rw [← zpow_natCast, ← zpow_add₀ (by norm_num)]
    congr 1
    push_cast
    ring
  have digits : readDigits (readDigits 0 literal.whole) literal.places =
      10 ^ count * readDigits (readDigits 0 literal.whole) kept := by
    rw [split, readDigits_append_replicate]
  show signed literal.negative (readDigits (readDigits 0 literal.whole) literal.trim.places *
    10 ^ (literal.exponentValue - (literal.trim.places.length : Int))) = literal.value
  rw [value, places_trim, digits, split, dropTrailing_append_replicate count ends,
    List.length_append, List.length_replicate, moved]
  push_cast
  ring_nf

/-- Cutting off zeros, and then a point, trims a literal with a point and without exponent. -/
theorem trimmed_text (wellFormed : literal.IsWellFormed) (nonempty : literal.whole ≠ [])
    (pointed : literal.fraction.isSome = true) (noExponent : literal.exponent = none) :
    trimmed (String.ofList literal.text) = String.ofList literal.trim.text := by
  obtain ⟨digits, present⟩ := Option.isSome_iff_exists.1 pointed
  have same : literal.places = digits := by rw [Literal.places, present, Option.getD_some]
  have text : literal.text = minus literal.negative ++ literal.whole ++ '.' :: literal.places := by
    simp [Literal.text, fractionText, exponentText, present, noExponent, same]
  have noPoint : (minus literal.negative ++ literal.whole).getLast? ≠ some '.' :=
    getLast?_append_ne wellFormed.whole nonempty rfl
  rw [trimmed, String.toList_ofList, text, dropTrailing_point wellFormed.places noPoint]
  congr 1
  unfold Literal.text fractionText exponentText trim
  dsimp only
  rw [noExponent]
  cases dropTrailing '0' literal.places <;> simp

theorem isShortest_trim (wellFormed : literal.IsWellFormed)
    (leading : literal.whole ≠ [] ∧ (literal.whole.head? = some '0' → literal.whole = ['0']))
    (noExponent : literal.exponent = none) : literal.trim.IsShortest := by
  obtain ⟨kept, count, split, ends⟩ := exists_append_replicate literal.places '0'
  have left : dropTrailing '0' literal.places = kept := by
    rw [split, dropTrailing_append_replicate count ends]
  have areDigits : ∀ character ∈ literal.trim.places, character.isDigit = true := by
    intro character member
    rw [places_trim, left] at member
    exact wellFormed.places character (split ▸ List.mem_append_left _ member)
  refine ⟨⟨wellFormed.whole, areDigits, wellFormed.exponent,
    fun absent => leading.1 (List.append_eq_nil_iff.1 absent).1⟩, leading, ?_, noExponent⟩
  intro digits present
  unfold trim at present
  rw [left] at present
  cases kept with
  | nil => exact nomatch present
  | cons first others =>
    obtain rfl := Option.some.inj present
    exact ⟨List.cons_ne_nil _ _, ends⟩

/-- The literal with a number of units of the last place. -/
def ofUnits (places : Nat) (negative : Bool) (units : Nat) : Literal :=
  ⟨negative, digits (units / 10 ^ places), some (padded places (digits (units % 10 ^ places))),
    none⟩

theorem isWellFormed_ofUnits (places : Nat) (negative : Bool) (units : Nat) :
    (ofUnits places negative units).IsWellFormed where
  whole _ := isDigit_of_mem_digits
  places _ := isDigit_of_mem_padded fun _ => isDigit_of_mem_digits
  exponent _ absent := nomatch absent
  hasDigit absent := (leading_digits _).1 (List.append_eq_nil_iff.1 absent).1

theorem value_ofUnits {places : Nat} (positive : 0 < places) (negative : Bool) (units : Nat) :
    (ofUnits places negative units).value = signed negative (units / 10 ^ places) := by
  have fits : units % 10 ^ places < 10 ^ places := Nat.mod_lt units (by positivity)
  show signed negative (readDigits (readDigits 0 (digits (units / 10 ^ places)))
    (padded places (digits (units % 10 ^ places))) *
      10 ^ (0 - ((padded places (digits (units % 10 ^ places))).length : Int))) = _
  rw [readDigits_padded _ positive fits, readDigits_digits, Nat.div_add_mod,
    length_padded positive fits, zero_sub, zpow_neg, zpow_natCast, div_eq_mul_inv]

end Literal

theorem fixedText_eq {places : Nat} (positive : 0 < places) (negative : Bool)
    (numerator denominator : Nat) :
    fixedText places negative numerator denominator =
      String.ofList (Literal.ofUnits places negative
        (roundHalfEven (numerator * 10 ^ places) denominator)).text := by
  unfold fixedText pointed
  rw [if_neg positive.ne']
  cases negative <;>
    simp [Literal.text, Literal.ofUnits, Literal.fractionText, Literal.exponentText, minus]

/-- Trimmed text with a fixed number of places is a literal in its shortest form. It is off by half
a unit of the last place at most, and it has the sign that was asked for, also where it denotes
zero. -/
theorem exists_trimmed_fixedText {places denominator : Nat} (positive : 0 < places)
    (nonzero : 0 < denominator) (negative : Bool) (numerator : Nat) :
    ∃ literal : Literal,
      trimmed (fixedText places negative numerator denominator) = String.ofList literal.text ∧
        literal.IsShortest ∧ literal.negative = negative ∧ literal.places.length ≤ places ∧
        |literal.value - signed negative (numerator / denominator)| ≤ 1 / 2 / 10 ^ places ∧
        (literal.value = 0 ↔ 2 * (numerator * 10 ^ places) ≤ denominator) := by
  have power : (0 : Rat) < 10 ^ places := by positivity
  have rounded := abs_roundHalfEven_sub_le (numerator * 10 ^ places) nonzero
  have zero := roundHalfEven_eq_zero_iff (numerator * 10 ^ places) nonzero
  rw [fixedText_eq positive]
  generalize roundHalfEven (numerator * 10 ^ places) denominator = units at rounded zero ⊢
  have wellFormed := Literal.isWellFormed_ofUnits places negative units
  have leading := leading_digits (units / 10 ^ places)
  refine ⟨(Literal.ofUnits places negative units).trim,
    Literal.trimmed_text wellFormed leading.1 rfl rfl,
    Literal.isShortest_trim wellFormed leading rfl, rfl, ?_, ?_, ?_⟩
  · rw [Literal.places_trim]
    refine (List.rdropWhile_prefix _ _).length_le.trans (le_of_eq ?_)
    exact length_padded positive (Nat.mod_lt units (by positivity))
  · rw [Literal.value_trim, Literal.value_ofUnits positive, abs_signed_sub_signed]
    have scaled : (units : Rat) / 10 ^ places - numerator / denominator =
        (units - ((numerator * 10 ^ places : Nat) : Rat) / denominator) / 10 ^ places := by
      push_cast
      field_simp
    rw [scaled, abs_div, abs_of_pos power]
    exact div_le_div_of_nonneg_right rounded power.le
  · rw [Literal.value_trim, Literal.value_ofUnits positive, signed_eq_zero_iff,
      div_eq_zero_iff, or_iff_left power.ne', Nat.cast_eq_zero, zero]

-- Without places there is no point in front of the zeros.
example : trimmed (fixedText 0 false 100 1) = "1" := by decide +kernel

end LinearProgramming.Numeral
