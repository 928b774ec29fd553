import Hashlang.Proofs.Token.Grammar

namespace Hashlang

open Lexeme

namespace Numeral

theorem split_digits {digits fraction : List Char} (digital : ∀ d ∈ digits, d.isDigit)
    (shape : IsFraction fraction) :
    (digits ++ fraction).takeWhile Char.isDigit = digits ∧
      (digits ++ fraction).dropWhile Char.isDigit = fraction := by
  rw [List.takeWhile_append_of_pos digital, List.dropWhile_append_of_pos digital]
  cases shape with
  | absent => exact ⟨List.append_nil _, rfl⟩
  | point => exact ⟨List.append_nil _, rfl⟩

theorem splitFraction_of_isFraction {fraction : List Char} (shape : IsFraction fraction) :
    ∃ places, splitFraction fraction = (places, []) := by
  cases shape with
  | absent => exact ⟨[], rfl⟩
  | @point digits digital =>
    have whole := split_digits digital .absent
    rw [List.append_nil] at whole
    exact ⟨digits, by rw [splitFraction, whole.1, whole.2]⟩

theorem magnitude?_of_digits (negative : Bool) {digits fraction : List Char} (present : digits ≠ [])
    (digital : ∀ d ∈ digits, d.isDigit) (shape : IsFraction fraction) :
    ∃ n e, magnitude? negative (digits ++ fraction) = some (.decimal negative n e) := by
  obtain ⟨whole, behind⟩ := split_digits digital shape
  obtain ⟨places, split⟩ := splitFraction_of_isFraction shape
  refine ⟨ofDigits (digits ++ places), 0 - places.length, ?_⟩
  have some : digits.isEmpty = false := by simpa using present
  simp only [magnitude?, whole, behind, split, some, Bool.false_and, exponent?, Option.map_some]
  rfl

theorem toLower_of_isDigit {d : Char} (digit : d.isDigit) : d.toLower = d := by
  simp only [Char.isDigit, Bool.and_eq_true, decide_eq_true_eq] at digit
  delta Char.toLower
  rw [dif_neg]
  rintro ⟨upper, -⟩
  exact absurd (UInt32.le_trans upper digit.2) (by decide)

theorem word_ne {d c : Char} {digits word : List Char} (digit : d.isDigit) (letter : c.isDigit = false) :
    (d :: digits).map Char.toLower ≠ c :: word := by
  intro whole
  obtain ⟨rfl, -⟩ := List.cons.inj whole
  rw [toLower_of_isDigit digit, digit] at letter
  cases letter

theorem splitSign_of_digit {d : Char} (digit : d.isDigit) (rest : List Char) :
    splitSign (d :: rest) = (false, d :: rest) := by
  have minus : d ≠ '-' := ne_of_isDigit digit (by decide)
  have plus : d ≠ '+' := ne_of_isDigit digit (by decide)
  rw [splitSign] <;> simpa

theorem ofChars?_of_isNumber {text : List Char} (number : IsNumber text) :
    ∃ negative n e, ofChars? text = some (.decimal negative n e) := by
  -- The two shapes differ in the sign only.
  obtain ⟨negative, digits, fraction, split, present, digital, shape⟩ :
      ∃ negative digits fraction, splitSign text = (negative, digits ++ fraction) ∧ digits ≠ [] ∧
        (∀ d ∈ digits, d.isDigit) ∧ IsFraction fraction := by
    cases number with
    | @unsigned digits fraction present digital shape =>
      obtain ⟨d, digits, rfl⟩ := List.exists_cons_of_ne_nil present
      have sign := splitSign_of_digit (digital d List.mem_cons_self) (digits ++ fraction)
      exact ⟨false, d :: digits, fraction, sign, present, digital, shape⟩
    | @negative digits fraction present digital shape =>
      exact ⟨true, digits, fraction, rfl, present, digital, shape⟩
  obtain ⟨n, e, read⟩ := magnitude?_of_digits negative present digital shape
  refine ⟨negative, n, e, ?_⟩
  obtain ⟨d, digits, rfl⟩ := List.exists_cons_of_ne_nil present
  have digit := digital d List.mem_cons_self
  have nan : (d :: (digits ++ fraction)).map Char.toLower ≠ "nan".toList := word_ne digit (by decide)
  have inf : (d :: (digits ++ fraction)).map Char.toLower ≠ "inf".toList := word_ne digit (by decide)
  have infinity : (d :: (digits ++ fraction)).map Char.toLower ≠ "infinity".toList :=
    word_ne digit (by decide)
  rw [List.cons_append] at split read
  simp only [ofChars?, split, nan, inf, infinity, decide_false, Bool.or_self, Bool.false_eq_true,
    if_false, read]

end Numeral

end Hashlang
