/-
This file proves that reading a decimal literal gives back what was written.

A literal is written as its sign, the digits before the point, the digits after it and the
exponent. Each part ends where the next one starts, at a character that is not a digit, so a
reader that takes the longest run of digits finds the parts again. What a literal denotes is the
number that its digits stand for. In its shortest form a literal has no zeros at either end that
could be left out; there the sign tells negative numbers from the others, with one exception: a
zero can be written with a minus sign.
-/

import Mathlib
import LinearProgramming.Numeral.Reader

namespace LinearProgramming.Numeral

/-! ### The parts of a literal -/

/-- The run of digits at the front ends at the first character that is not one. -/
theorem span_isDigit_append {digits rest : List Char}
    (areDigits : ∀ character ∈ digits, character.isDigit = true)
    (stops : ∀ character ∈ rest.head?, character.isDigit = false) :
    (digits ++ rest).span Char.isDigit = (digits, rest) := by
  rw [List.span_eq_takeWhile_dropWhile, List.takeWhile_append_of_pos areDigits,
    List.dropWhile_append_of_pos areDigits]
  cases rest with
  | nil => simp
  | cons next others => simp [stops next rfl]

/-- A minus sign where it is asked for. -/
def minus (negative : Bool) : List Char := if negative then ['-'] else []

/-- A sign is found again in front of characters that do not start with one. -/
theorem readSign_minus_append (negative : Bool) {unsigned : List Char}
    (noSign : ∀ character ∈ unsigned.head?, character ≠ '-' ∧ character ≠ '+') :
    readSign (minus negative ++ unsigned) = (negative, unsigned) := by
  cases negative with
  | true => rfl
  | false =>
    show readSign unsigned = _
    unfold readSign
    split
    · exact absurd rfl (noSign _ rfl).1
    · exact absurd rfl (noSign _ rfl).2
    · rfl

theorem ne_sign_of_isDigit {character : Char} (isDigit : character.isDigit = true) :
    character ≠ '-' ∧ character ≠ '+' := by
  constructor <;> rintro rfl <;> exact absurd isDigit (by decide)

/-- The digits after a point, if there is a point. -/
def readFraction : List Char → Option (List Char) × List Char
  | '.' :: rest =>
    let (digits, rest) := rest.span Char.isDigit
    (some digits, rest)
  | rest => (none, rest)

/-- The parts of a literal are read one after the other, until nothing is left. -/
theorem decimal?_eq_some {text unsigned afterWhole afterFraction : List Char} {literal : Literal}
    (sign : readSign text = (literal.negative, unsigned))
    (whole : unsigned.span Char.isDigit = (literal.whole, afterWhole))
    (fraction : readFraction afterWhole = (literal.fraction, afterFraction))
    (exponent : readExponent afterFraction = some (literal.exponent, []))
    (hasDigit : literal.whole ++ literal.fraction.getD [] ≠ []) :
    decimal? text = some literal := by
  -- The reader with its four stages one inside the other.
  have stages : decimal? text =
      if (unsigned.span Char.isDigit).1.isEmpty &&
          ((readFraction (unsigned.span Char.isDigit).2).1.getD []).isEmpty then none
      else (readExponent (readFraction (unsigned.span Char.isDigit).2).2).bind fun found =>
        if found.2.isEmpty then
          some ⟨literal.negative, (unsigned.span Char.isDigit).1,
            (readFraction (unsigned.span Char.isDigit).2).1, found.1⟩
        else none := by
    unfold decimal?
    rw [sign]
    rfl
  rw [stages, whole, fraction, exponent, if_neg]
  · rfl
  · intro isEmpty
    rw [Bool.and_eq_true, List.isEmpty_iff, List.isEmpty_iff] at isEmpty
    exact hasDigit (List.append_eq_nil_iff.2 isEmpty)

/-! ### Literals -/

namespace Literal

/-- The digits after the point. -/
def places (literal : Literal) : List Char := literal.fraction.getD []

/-- The point and the digits after it as they are written. -/
def fractionText (literal : Literal) : List Char :=
  match literal.fraction with
  | none => []
  | some digits => '.' :: digits

/-- The exponent as it is written. -/
def exponentText (literal : Literal) : List Char :=
  match literal.exponent with
  | none => []
  | some (negative, digits) => 'e' :: (minus negative ++ digits)

/-- A literal as it is written. -/
def text (literal : Literal) : List Char :=
  minus literal.negative ++ (literal.whole ++ (literal.fractionText ++ literal.exponentText))

/-- The parts of a literal consist of digits. There is one before or after the point, and one in
the exponent if there is an exponent. -/
structure IsWellFormed (literal : Literal) : Prop where
  whole : ∀ character ∈ literal.whole, character.isDigit = true
  places : ∀ character ∈ literal.places, character.isDigit = true
  exponent : ∀ part ∈ literal.exponent,
    part.2 ≠ [] ∧ ∀ character ∈ part.2, character.isDigit = true
  hasDigit : literal.whole ++ literal.places ≠ []

variable {literal : Literal} {character : Char}

theorem eq_of_exponentText (first : character ∈ literal.exponentText.head?) :
    character = 'e' := by
  unfold exponentText at first
  split at first
  · exact nomatch first
  · exact (Option.some.inj first).symm

theorem eq_of_fractionText
    (first : character ∈ (literal.fractionText ++ literal.exponentText).head?) :
    character = '.' ∨ character = 'e' := by
  unfold fractionText at first
  split at first
  · exact Or.inr (eq_of_exponentText first)
  · exact Or.inl (Option.some.inj first).symm

namespace IsWellFormed

theorem readSign_text (wellFormed : literal.IsWellFormed) : readSign literal.text =
    (literal.negative, literal.whole ++ (literal.fractionText ++ literal.exponentText)) := by
  refine readSign_minus_append literal.negative fun character first => ?_
  cases digits : literal.whole with
  | nil =>
    -- Without digits before the point the first character is the point.
    rw [digits, List.nil_append] at first
    rcases eq_of_fractionText first with rfl | rfl <;> decide
  | cons leading others =>
    rw [digits] at first
    rw [← Option.some.inj first]
    exact ne_sign_of_isDigit (wellFormed.whole leading (digits ▸ List.mem_cons_self))

theorem readFraction_text (wellFormed : literal.IsWellFormed) :
    readFraction (literal.fractionText ++ literal.exponentText) =
      (literal.fraction, literal.exponentText) := by
  have stops : ∀ character ∈ literal.exponentText.head?, character.isDigit = false := by
    intro character first
    rw [eq_of_exponentText first]
    rfl
  unfold fractionText
  cases present : literal.fraction with
  | none =>
    show readFraction literal.exponentText = _
    unfold readFraction
    split
    · next rest same =>
      exact absurd (eq_of_exponentText (congrArg List.head? same : _ = some '.')) (by decide)
    · rfl
  | some digits =>
    show ((some ((digits ++ literal.exponentText).span Char.isDigit).1,
      ((digits ++ literal.exponentText).span Char.isDigit).2) : _ × _) = _
    have areDigits : ∀ character ∈ digits, character.isDigit = true := by
      simpa only [Literal.places, present, Option.getD_some] using wellFormed.places
    rw [span_isDigit_append areDigits stops]

theorem readExponent_text (wellFormed : literal.IsWellFormed) :
    readExponent literal.exponentText = some (literal.exponent, []) := by
  unfold exponentText
  cases present : literal.exponent with
  | none => rfl
  | some part =>
    obtain ⟨negative, digits⟩ := part
    obtain ⟨nonempty, areDigits⟩ := wellFormed.exponent _ present
    have sign : readSign (minus negative ++ digits) = (negative, digits) :=
      readSign_minus_append negative fun character first =>
        ne_sign_of_isDigit (areDigits character (List.mem_of_mem_head? first))
    have run : readRun digits = some (digits, []) := by
      have all : digits.span Char.isDigit = (digits, []) := by
        have whole : (digits ++ []).span Char.isDigit = (digits, []) :=
          span_isDigit_append areDigits fun _ absent => nomatch absent
        rwa [List.append_nil] at whole
      unfold readRun
      rw [all]
      cases digits with
      | nil => exact absurd rfl nonempty
      | cons first others => rfl
    show (readRun (readSign (minus negative ++ digits)).2).map (fun found =>
      (some ((readSign (minus negative ++ digits)).1, found.1), found.2)) = _
    rw [sign, run]
    rfl

/-- Reading a literal as it is written gives the literal. -/
theorem decimal?_text (wellFormed : literal.IsWellFormed) :
    decimal? literal.text = some literal :=
  decimal?_eq_some wellFormed.readSign_text
    (span_isDigit_append wellFormed.whole fun character first => by
      rcases eq_of_fractionText first with rfl | rfl <;> rfl)
    wellFormed.readFraction_text wellFormed.readExponent_text wellFormed.hasDigit

end IsWellFormed

end Literal

/-! ### What digits stand for -/

theorem readDigits_eq (start : Nat) (characters : List Char) :
    readDigits start characters = Nat.ofDigitChars 10 characters start := rfl

/-- Digits that stand for zero are zeros. -/
theorem eq_of_readDigits_eq_zero {start : Nat} {characters : List Char}
    (areDigits : ∀ character ∈ characters, character.isDigit = true)
    (zero : readDigits start characters = 0) :
    start = 0 ∧ ∀ character ∈ characters, character = '0' := by
  induction characters generalizing start with
  | nil => exact ⟨zero, fun _ absent => nomatch absent⟩
  | cons first others inductionHypothesis =>
    have next : readDigits (10 * start + digitValue first) others = 0 := zero
    obtain ⟨none, rest⟩ := inductionHypothesis
      (fun character member => areDigits character (List.mem_cons_of_mem first member)) next
    obtain ⟨noStart, noDigit⟩ := Nat.add_eq_zero_iff.1 none
    have least := (Char.isDigit_iff_toNat.1 (areDigits first List.mem_cons_self)).1
    have isZero : first = '0' :=
      Char.toNat_inj.1 (Nat.le_antisymm (Nat.sub_eq_zero_iff_le.1 noDigit) least)
    refine ⟨by omega, fun character member => ?_⟩
    rcases List.mem_cons.1 member with rfl | member
    · exact isZero
    · exact rest character member

/-- A size with a sign. -/
def signed (negative : Bool) (size : Rat) : Rat := if negative then -size else size

theorem signed_neg_iff {negative : Bool} {size : Rat} (nonneg : 0 ≤ size) :
    signed negative size < 0 ↔ negative = true ∧ signed negative size ≠ 0 := by
  unfold signed
  cases negative with
  | false => simpa using nonneg
  | true => simpa using nonneg.lt_iff_ne'

theorem signed_eq_zero_iff {negative : Bool} {size : Rat} :
    signed negative size = 0 ↔ size = 0 := by
  cases negative with
  | false => exact Iff.rfl
  | true => exact neg_eq_zero

theorem abs_signed_sub_signed (negative : Bool) (left right : Rat) :
    |signed negative left - signed negative right| = |left - right| := by
  cases negative with
  | false => rfl
  | true =>
    show |-left - -right| = _
    rw [neg_sub_neg, abs_sub_comm]

namespace Literal

/-- The number that a literal denotes: that of its digits, moved by the places after the point and
by the exponent. -/
def value (literal : Literal) : Rat :=
  signed literal.negative (readDigits (readDigits 0 literal.whole) literal.places *
    (10 : Rat) ^ (literal.exponentValue - (literal.places.length : Int)))

/-- A literal is in its shortest form when it has no exponent, no zero in front of another digit
before the point, and after the point, if there is one, digits that do not end in zero. -/
structure IsShortest (literal : Literal) : Prop extends literal.IsWellFormed where
  leading : literal.whole ≠ [] ∧ (literal.whole.head? = some '0' → literal.whole = ['0'])
  trailing : ∀ digits ∈ literal.fraction, digits ≠ [] ∧ digits.getLast? ≠ some '0'
  noExponent : literal.exponent = none

variable {literal : Literal}

theorem value_neg_iff : literal.value < 0 ↔ literal.negative = true ∧ literal.value ≠ 0 :=
  signed_neg_iff (by positivity)

/-- The digits of a literal that denotes zero are zeros. -/
theorem IsWellFormed.digits_eq_zero (wellFormed : literal.IsWellFormed) (zero : literal.value = 0) :
    (∀ character ∈ literal.whole, character = '0') ∧
      ∀ character ∈ literal.places, character = '0' := by
  have power : (10 : Rat) ^ (literal.exponentValue - (literal.places.length : Int)) ≠ 0 := by
    positivity
  have noSize := (mul_eq_zero_iff_right power).1 (signed_eq_zero_iff.1 zero)
  obtain ⟨noWhole, noPlaces⟩ :=
    eq_of_readDigits_eq_zero wellFormed.places (Nat.cast_eq_zero.1 noSize)
  exact ⟨(eq_of_readDigits_eq_zero wellFormed.whole noWhole).2, noPlaces⟩

namespace IsShortest

theorem head?_text (shortest : literal.IsShortest) :
    literal.text.head? = some '-' ↔ literal.negative = true := by
  unfold text
  cases literal.negative with
  | true => exact iff_of_true rfl rfl
  | false =>
    refine iff_of_false (fun first => ?_) Bool.false_ne_true
    cases digits : literal.whole with
    | nil => exact shortest.leading.1 digits
    | cons leading others =>
      rw [digits] at first
      have isDigit := shortest.whole leading (digits ▸ List.mem_cons_self)
      exact (ne_sign_of_isDigit isDigit).1 (Option.some.inj first)

/-- Zero has one shortest form for each sign. -/
theorem eq_of_value_eq_zero (shortest : literal.IsShortest) (zero : literal.value = 0) :
    literal = ⟨literal.negative, ['0'], none, none⟩ := by
  obtain ⟨noWhole, noPlaces⟩ := shortest.digits_eq_zero zero
  have whole : literal.whole = ['0'] := by
    cases digits : literal.whole with
    | nil => exact absurd digits shortest.leading.1
    | cons first others =>
      rw [digits] at noWhole
      have same := shortest.leading.2
      rw [digits, noWhole first List.mem_cons_self] at same
      rw [noWhole first List.mem_cons_self]
      exact same rfl
  have fraction : literal.fraction = none := by
    cases present : literal.fraction with
    | none => rfl
    | some digits =>
      obtain ⟨nonempty, ends⟩ := shortest.trailing digits present
      rw [Literal.places, present] at noPlaces
      have last := noPlaces (digits.getLast nonempty) (List.getLast_mem nonempty)
      exact absurd (last ▸ List.getLast?_eq_some_getLast nonempty) ends
  calc literal = ⟨literal.negative, literal.whole, literal.fraction, literal.exponent⟩ := rfl
    _ = ⟨literal.negative, ['0'], none, none⟩ := by rw [whole, fraction, shortest.noExponent]

/-- Zero has a minus sign in front of it exactly when the text is `-0`. -/
theorem text_eq_iff (shortest : literal.IsShortest) :
    literal.text = ['-', '0'] ↔ literal.negative = true ∧ literal.value = 0 := by
  constructor
  · intro same
    have read := shortest.decimal?_text
    rw [same] at read
    obtain rfl := Option.some.inj read
    exact ⟨rfl, by decide +kernel⟩
  · rintro ⟨negative, zero⟩
    rw [shortest.eq_of_value_eq_zero zero, negative]
    rfl

/-- Unless the text is `-0`, there is a minus sign exactly in front of negative numbers. -/
theorem head?_text_iff_value_neg (shortest : literal.IsShortest)
    (visible : literal.text ≠ ['-', '0']) :
    literal.text.head? = some '-' ↔ literal.value < 0 := by
  rw [shortest.head?_text, value_neg_iff]
  exact (and_iff_left_of_imp fun negative zero =>
    visible (shortest.text_eq_iff.2 ⟨negative, zero⟩)).symm

end IsShortest

end Literal

end LinearProgramming.Numeral
