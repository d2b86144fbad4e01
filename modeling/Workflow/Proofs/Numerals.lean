import Mathlib.Data.List.TakeWhile
import Workflow.Expression.Condition
import Workflow.Proofs.Binary64.Integers

/-!
# Whole numbers in decimal

A numeral is one digit or more, read in the decimal system; a whole number may have a sign in front.
Positions, whole numbers of 64 bits and floating-point numbers are read by three different readers.
Each of them takes a numeral for the number it denotes, as far as its range goes: positions and
whole numbers exactly, floating-point numbers as the nearest one of the format.
-/
namespace Workflow

/-- Digits that denote a number. -/
structure IsNumeral (digits : List Char) (value : Nat) : Prop where
  nonempty : digits ≠ []
  decimal : digits.all Char.isDigit = true
  denotes : Nat.ofDigitChars 10 digits 0 = value

/-- A whole number in decimal, with or without a sign. -/
inductive IsInteger : List Char → Int → Prop where
  | plain {digits : List Char} {value : Nat} (numeral : IsNumeral digits value) :
      IsInteger digits value
  | plus {digits : List Char} {value : Nat} (numeral : IsNumeral digits value) :
      IsInteger ('+' :: digits) value
  | minus {digits : List Char} {value : Nat} (numeral : IsNumeral digits value) :
      IsInteger ('-' :: digits) (-value)

/-- The value of digits is that of the decimal number that they write. -/
theorem Binary64.digitsValue_eq (digits : List Char) :
    digitsValue digits = Nat.ofDigitChars 10 digits 0 := by
  simp only [digitsValue, Nat.ofDigitChars_eq_foldl, Nat.mul_comm]

/-- Numbers are printed as numerals. -/
theorem isNumeral_toDigits (value : Nat) : IsNumeral (Nat.toDigits 10 value) value where
  nonempty := Nat.toDigits_ne_nil
  decimal := List.all_eq_true.mpr fun _ inside =>
    Nat.isDigit_of_mem_toDigits (by decide) (by decide) inside
  denotes := Nat.ofDigitChars_toDigits (by decide) (by decide)

/-- A numeral begins with a digit. -/
theorem IsNumeral.exists_cons {digits : List Char} {value : Nat}
    (numeral : IsNumeral digits value) :
    ∃ first rest, digits = first :: rest ∧ first.isDigit = true := by
  match digits, numeral with
  | [], numeral => exact absurd rfl numeral.nonempty
  | first :: rest, numeral =>
    have decimal := numeral.decimal
    rw [List.all_cons, Bool.and_eq_true] at decimal
    exact ⟨first, rest, rfl, decimal.1⟩

/-- A numeral begins with no character but a digit. -/
theorem IsNumeral.head_ne {character : Char} {rest : List Char} {value : Nat}
    (other : character.isDigit = false) : ¬IsNumeral (character :: rest) value := by
  intro numeral
  have decimal := numeral.decimal
  simp [other] at decimal

/-- A numeral has no sign. -/
theorem IsNumeral.splitSign {digits : List Char} {value : Nat} (numeral : IsNumeral digits value) :
    Binary64.splitSign digits = (false, digits) := by
  obtain ⟨first, rest, rfl, decimal⟩ := numeral.exists_cons
  rw [Binary64.splitSign]
  · rintro later ⟨⟩
    cases decimal
  · rintro later ⟨⟩
    cases decimal

/-- The sign of a whole number is split off from its digits. -/
theorem IsInteger.splitSign {word : List Char} {number : Int} (integer : IsInteger word number) :
    ∃ negative digits value, Binary64.splitSign word = (negative, digits) ∧
      IsNumeral digits value ∧ number = if negative then -(value : Int) else value := by
  cases integer with
  | plain numeral => exact ⟨false, _, _, numeral.splitSign, numeral, rfl⟩
  | plus numeral => exact ⟨false, _, _, rfl, numeral, rfl⟩
  | minus numeral => exact ⟨true, _, _, rfl, numeral, rfl⟩

/-! ## Positions -/

namespace Reference

/-- A segment that names a position: a numeral, with or without a plus sign, in the range of 64
bits. -/
def NamesPosition (segment : String) (position : Nat) : Prop :=
  (IsNumeral segment.toList position ∨
    ∃ digits, segment.toList = '+' :: digits ∧ IsNumeral digits position) ∧
  position < 2 ^ 64

/-- A position is named by the numeral that is printed for it. -/
theorem namesPosition_toString {position : Nat} (word : position < 2 ^ 64) :
    NamesPosition (toString position) position := by
  have printed : (toString position).toList = Nat.toDigits 10 position := by
    rw [Nat.toString_eq_ofList_toDigits, String.toList_ofList]
  exact ⟨.inl (printed ▸ isNumeral_toDigits position), word⟩

/-- What is read once the sign has been left out. -/
theorem position_of_digits (digits : List Char) (position : Nat) :
    (if digits ≠ [] ∧ digits.all Char.isDigit then
      if Binary64.digitsValue digits ≤ greatestPosition then some (Binary64.digitsValue digits)
      else none
    else none) = some position ↔ IsNumeral digits position ∧ position < 2 ^ 64 := by
  have greatest : greatestPosition + 1 = 2 ^ 64 := by decide
  rw [Binary64.digitsValue_eq]
  constructor
  · intro read
    split at read
    · rename_i decimal
      split at read
      · cases read
        exact ⟨⟨decimal.1, decimal.2, rfl⟩, by omega⟩
      · cases read
    · cases read
  · rintro ⟨numeral, word⟩
    rw [if_pos ⟨numeral.nonempty, numeral.decimal⟩, numeral.denotes, if_pos (by omega)]

/-- The segments that are read as a position are those that name it. -/
theorem position?_eq_some_iff (segment : String) (position : Nat) :
    position? segment = some position ↔ NamesPosition segment position := by
  rw [position?, NamesPosition]
  split
  · rename_i rest signed
    have named : (IsNumeral segment.toList position ∨
        ∃ digits, segment.toList = '+' :: digits ∧ IsNumeral digits position) ↔
          IsNumeral rest position := by
      have other : ¬IsNumeral ('+' :: rest) position := IsNumeral.head_ne rfl
      simp [signed, other]
    rw [named]
    exact position_of_digits rest position
  · rename_i unsigned
    have named : (IsNumeral segment.toList position ∨
        ∃ digits, segment.toList = '+' :: digits ∧ IsNumeral digits position) ↔
          IsNumeral segment.toList position := by
      apply or_iff_left
      rintro ⟨digits, signed, -⟩
      exact unsigned digits signed
    rw [named]
    exact position_of_digits segment.toList position

end Reference

/-! ## Whole numbers of 64 bits -/

/-- An integer is read as one if it fits 64 bits with its sign. -/
theorem Condition.integer?_eq {word : List Char} {number : Int} (integer : IsInteger word number) :
    integer? word = if -(2 ^ 63) ≤ number ∧ number < 2 ^ 63 then some number else none := by
  obtain ⟨negative, digits, value, sign, numeral, rfl⟩ := integer.splitSign
  have digitsOnly : digits ≠ [] ∧ digits.all Char.isDigit := ⟨numeral.nonempty, numeral.decimal⟩
  rw [integer?, sign]
  simp only [if_pos digitsOnly, Binary64.digitsValue_eq, numeral.denotes]
  rfl

/-! ## Floating-point numbers -/

namespace Binary64

/-- No whole number of 64 bits overflows. -/
theorem roundUnits_lt_overflow {value : Nat} (small : value ≤ 2 ^ 64) :
    roundUnits (value * unitsPerOne) 1 < overflow := by
  have bound : roundUnits (value * unitsPerOne) 1 ≤ roundUnits (2 ^ 64 * unitsPerOne) 1 :=
    roundUnits_mono (Nat.mul_le_mul_right _ small)
  have range : roundUnits (2 ^ 64 * unitsPerOne) 1 < overflow := by decide +kernel
  exact Nat.lt_of_le_of_lt bound range

/-- A whole number is rounded once. -/
theorem ofDecimal?_whole (negative : Bool) {value : Nat} (small : value ≤ 2 ^ 64) :
    ofDecimal? negative value 0 = some ⟨negative, roundUnits (value * unitsPerOne) 1⟩ := by
  by_cases zero : value = 0
  · rw [zero, ofDecimal?, if_pos rfl, Nat.zero_mul]
    rfl
  · have within : ¬(0 : Int) + decimalLength value < -400 := by omega
    rw [ofDecimal?, if_neg zero, if_neg (by decide), if_neg within, if_pos (by decide)]
    have power : value * Nat.pow 10 (0 : Int).toNat * unitsPerOne = value * unitsPerOne := by
      rw [Int.toNat_zero]
      exact congrArg (· * unitsPerOne) (Nat.mul_one value)
    rw [power, ofUnits?]
    exact if_pos (roundUnits_lt_overflow small)

/-- A text of digits has no fraction and no exponent. -/
theorem ofText?_digits {word digits : List Char} {value : Nat} {negative : Bool}
    (sign : splitSign word = (negative, digits)) (numeral : IsNumeral digits value) :
    ofText? word = ofDecimal? negative value 0 := by
  have whole : digits.takeWhile Char.isDigit = digits :=
    List.takeWhile_eq_self_iff.mpr (List.all_eq_true.mp numeral.decimal)
  have rest : digits.dropWhile Char.isDigit = [] :=
    List.dropWhile_eq_nil_iff.mpr (List.all_eq_true.mp numeral.decimal)
  rw [ofText?, sign]
  simp only [splitDigits, whole, rest, splitFraction, numeral.nonempty, false_and, if_false,
    exponent?, Option.bind_some, List.append_nil, digitsValue_eq, numeral.denotes]
  rfl

/-- A whole number in the range of 64 bits is read as the nearest number of the format. -/
theorem ofText?_of_isInteger {word : List Char} {number : Int} (integer : IsInteger word number)
    (small : number.natAbs ≤ 2 ^ 64) :
    ∃ read, ofText? word = some read ∧ read.scaled = nearest number * unitsPerOne := by
  obtain ⟨negative, digits, value, sign, numeral, rfl⟩ := integer.splitSign
  have magnitude : value ≤ 2 ^ 64 := by
    cases negative <;> simp at small <;> omega
  refine ⟨⟨negative, roundUnits (value * unitsPerOne) 1⟩, ?_, scaled_rounded negative value⟩
  rw [ofText?_digits sign numeral, ofDecimal?_whole negative magnitude]

end Binary64

end Workflow
