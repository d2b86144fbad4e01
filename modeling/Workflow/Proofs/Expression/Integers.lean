import Workflow.Proofs.Expression.Comparison
import Workflow.Proofs.Expression.Verdicts
import Workflow.Proofs.Numerals

/-!
# Comparing whole numbers

A condition compares two whole numbers as the floating-point numbers nearest to them. So all six
comparisons are right unless the two numbers differ and have the same nearest one, which takes a
number beyond `2 ^ 53`; then they count as equal, and the comparisons that tell them apart are
wrong.
-/
namespace Workflow

/-- The comparison of two whole numbers. -/
def Comparison.Holds (comparison : Comparison) (left right : Int) : Prop :=
  match comparison with
  | .greater => right < left
  | .less => left < right
  | .atLeast => right ≤ left
  | .atMost => left ≤ right
  | .equal => left = right
  | .unequal => left ≠ right

namespace Binary64

/-- The nearest floating-point numbers do not make one number of two different ones. -/
def Separate (first second : Int) : Prop := first = second ∨ nearest first ≠ nearest second

/-- Whole numbers up to the 53rd power of two are kept apart. -/
theorem separate_of_small {first second : Int} (small : first.natAbs ≤ 2 ^ 53)
    (other : second.natAbs ≤ 2 ^ 53) : Separate first second := by
  rw [Separate, nearest_of_precise (.of_le small), nearest_of_precise (.of_le other)]
  exact Decidable.em _

/-- Whole numbers that are kept apart compare like the numbers nearest to them. -/
theorem Separate.holds_iff {first second : Int} (separate : Separate first second)
    (comparison : Comparison) :
    comparison.Holds (nearest first) (nearest second) ↔ comparison.Holds first second := by
  rcases separate with rfl | differ
  · cases comparison <;> simp [Comparison.Holds]
  · have forth : first ≤ second → nearest first ≤ nearest second := nearest_mono
    have back : second ≤ first → nearest second ≤ nearest first := nearest_mono
    cases comparison <;> simp only [Comparison.Holds] <;> omega

/-- Whole numbers are kept apart exactly if they compare like the numbers nearest to them. -/
theorem separate_iff (first second : Int) : Separate first second ↔
    ∀ comparison : Comparison,
      comparison.Holds (nearest first) (nearest second) ↔ comparison.Holds first second := by
  constructor
  · exact fun separate => separate.holds_iff
  · intro right
    by_cases same : nearest first = nearest second
    · exact .inl ((right .equal).mp same)
    · exact .inr same

end Binary64

namespace Condition

/-- A text by which a condition names a whole number: a reference that leads to it, such as `$name`
for a variable that holds it, or the number itself in the range of 64 bits. -/
inductive StandsFor (context : Context) : List Char → Int → Prop where
  | reference {path : List Char} {number : Int}
      (leads : (Reference.ofPath path).resolve? context = some (.ofInt number)) :
      StandsFor context (sigil :: path) number
  | literal {word : List Char} {number : Int} (integer : IsInteger word number)
      (least : -(2 ^ 63) ≤ number) (greatest : number < 2 ^ 64) : StandsFor context word number

/-- What a whole number begins with is neither the sigil nor a quote. -/
theorem IsInteger.exists_cons {word : List Char} {number : Int} (integer : IsInteger word number) :
    ∃ first rest, word = first :: rest ∧ first ≠ sigil ∧ isQuote first = false := by
  have digit {first : Char} (decimal : first.isDigit = true) :
      first ≠ sigil ∧ isQuote first = false := by
    constructor
    · rintro rfl
      cases decimal
    · rw [isQuote, Bool.or_eq_false_iff, decide_eq_false_iff_not, decide_eq_false_iff_not]
      constructor
      · rintro rfl
        cases decimal
      · rintro rfl
        cases decimal
  cases integer with
  | plain numeral =>
    obtain ⟨first, rest, rfl, decimal⟩ := numeral.exists_cons
    exact ⟨first, rest, rfl, digit decimal⟩
  | plus numeral => exact ⟨'+', _, rfl, by decide, rfl⟩
  | minus numeral => exact ⟨'-', _, rfl, by decide, rfl⟩

/-- A word that is a whole number is no constant. -/
theorem wordValue_integer {word : List Char} {number : Int} (integer : IsInteger word number) :
    wordValue word = match integer? word, Binary64.ofText? word with
      | some value, _ => .ofInt value
      | none, some value => .number (.float value)
      | none, none => .text (String.ofList word) := by
  obtain ⟨negative, digits, value, sign, numeral, -⟩ := integer.splitSign
  have differs (text : List Char) (unsigned : Binary64.splitSign text = (false, text))
      (other : text.all Char.isDigit = false) : word ≠ text := by
    rintro rfl
    have same : (false, word) = (negative, digits) := unsigned.symm.trans sign
    cases same
    rw [numeral.decimal] at other
    cases other
  rw [wordValue, if_neg (differs _ (by decide) (by decide)),
    if_neg (differs _ (by decide) (by decide))]
  exact if_neg (differs _ (by decide) (by decide))

/-- The measure of a whole number that is written out. -/
theorem measure_wordValue {word : List Char} {number : Int} (integer : IsInteger word number)
    (least : -(2 ^ 63) ≤ number) (greatest : number < 2 ^ 64) :
    measure (some (wordValue word)) =
      .number (Binary64.nearest number * Binary64.unitsPerOne) := by
  rw [wordValue_integer integer, integer?_eq integer]
  by_cases within : -(2 ^ 63) ≤ number ∧ number < 2 ^ 63
  · rw [if_pos within]
    exact (measure_of_numeric rfl).trans (congrArg _ (Binary64.scaled_ofInt number))
  · obtain ⟨read, reads, value⟩ := Binary64.ofText?_of_isInteger integer (by omega)
    rw [if_neg within, reads]
    exact (measure_of_numeric rfl).trans (congrArg _ value)

/-- The measure of an operand that names a whole number. -/
theorem operand_standsFor {context : Context} {token : List Char} {number : Int}
    (stands : StandsFor context (Text.trim token) number) :
    ∃ value, operand token context = .ok value ∧
      measure value = .number (Binary64.nearest number * Binary64.unitsPerOne) := by
  generalize trimmed : Text.trim token = word at stands
  cases stands with
  | reference leads =>
    refine ⟨some (.ofInt number), ?_,
      (measure_of_numeric rfl).trans (congrArg _ (Binary64.scaled_ofInt number))⟩
    rw [operand, trimmed, ← leads]
    exact if_pos rfl
  | literal integer least greatest =>
    refine ⟨some (wordValue word), ?_, measure_wordValue integer least greatest⟩
    obtain ⟨first, rest, rfl, plain, unquoted⟩ := IsInteger.exists_cons integer
    have bare : unquote? (first :: rest) = none := by simp [unquote?, unquoted]
    rw [operand, trimmed]
    simp only [if_neg plain, bare]

/-- Measures in units compare like the whole numbers that they are measures of. -/
theorem Measure.compare_whole (comparison : Comparison) (left right : Int) :
    (Measure.number (left * Binary64.unitsPerOne)).compare comparison
      (.number (right * Binary64.unitsPerOne)) = true ↔ comparison.Holds left right := by
  have positive : (0 : Int) < Binary64.unitsPerOne := by decide +kernel
  have same : left * Binary64.unitsPerOne = right * Binary64.unitsPerOne ↔ left = right :=
    Int.mul_eq_mul_right_iff (Int.ne_of_gt positive)
  have less (first second : Int) :
      first * Binary64.unitsPerOne < second * Binary64.unitsPerOne ↔ first < second :=
    Int.mul_lt_mul_right positive
  have most (first second : Int) :
      first * Binary64.unitsPerOne ≤ second * Binary64.unitsPerOne ↔ first ≤ second :=
    Int.mul_le_mul_right positive
  cases comparison <;>
    simp only [Measure.compare, Comparison.Holds, decide_eq_true_eq, Measure.number.injEq, ne_eq,
      same, less, most]

/-- A condition between two whole numbers, each held by a variable or written out, compares the
floating-point numbers nearest to them. All six comparisons are right just if these keep the two
apart, as they do up to `2 ^ 53`. -/
theorem whole_numbers_compared {condition : String} {parts : Split}
    (cuts : parts.Cuts (Text.trim condition.toList)) {context : Context} {first second : Int}
    (left : StandsFor context (Text.trim parts.left) first)
    (right : StandsFor context (Text.trim parts.right) second) :
    (evaluate (some condition) context).unreadable = none ∧
    ((evaluate (some condition) context).holds = true ↔
      parts.comparison.Holds (Binary64.nearest first) (Binary64.nearest second)) ∧
    (Binary64.Separate first second →
      ((evaluate (some condition) context).holds = true ↔
        parts.comparison.Holds first second)) ∧
    (Binary64.Separate first second ↔ ∀ comparison : Comparison,
      comparison.Holds (Binary64.nearest first) (Binary64.nearest second) ↔
        comparison.Holds first second) ∧
    (first.natAbs ≤ 2 ^ 53 → second.natAbs ≤ 2 ^ 53 → Binary64.Separate first second) := by
  obtain ⟨value, readLeft, measured⟩ := operand_standsFor left
  obtain ⟨other, readRight, otherMeasured⟩ := operand_standsFor right
  have judged : evaluate (some condition) context =
      ⟨compare parts.comparison value other, none⟩ := by
    have filledLeft := (operand_isOk_iff parts.left context).mp ⟨value, readLeft⟩
    have filledRight := (operand_isOk_iff parts.right context).mp ⟨other, readRight⟩
    obtain ⟨_, _, sameLeft, sameRight, verdict⟩ :=
      (evaluate_judges condition context).compared parts cuts filledLeft filledRight
    rw [operand_trim, readLeft] at sameLeft
    rw [operand_trim, readRight] at sameRight
    cases sameLeft
    cases sameRight
    exact verdict
  have holds : (evaluate (some condition) context).holds = true ↔
      parts.comparison.Holds (Binary64.nearest first) (Binary64.nearest second) := by
    rw [judged, compare_eq, measured, otherMeasured]
    exact Measure.compare_whole _ _ _
  refine ⟨by rw [judged], holds, ?_, Binary64.separate_iff first second,
    Binary64.separate_of_small⟩
  intro separate
  rw [holds, separate.holds_iff]

/-- A context in which a variable holds a whole number. -/
def holding (number : Int) : Context :=
  (Context.start "w" "run" .null).setOutput "id" (.ofInt number)

/-- The variable stands for the number that it holds. -/
theorem standsFor_held (number : Int) :
    StandsFor (holding number) (Text.trim "$id ".toList) number := .reference rfl

/-- Of two different whole numbers a condition may say that they are equal. -/
theorem different_numbers_equal :
    ∃ parts : Split, parts.Cuts (Text.trim "$id == 9007199254740992".toList) ∧
      StandsFor (holding 9007199254740993) (Text.trim parts.left) 9007199254740993 ∧
      StandsFor (holding 9007199254740993) (Text.trim parts.right) 9007199254740992 ∧
      ¬((evaluate (some "$id == 9007199254740992") (holding 9007199254740993)).holds = true ↔
        parts.comparison.Holds 9007199254740993 9007199254740992) := by
  have numeral : IsNumeral "9007199254740992".toList 9007199254740992 :=
    ⟨by decide, by decide, by decide⟩
  refine ⟨⟨"$id ".toList, .equal, " 9007199254740992".toList⟩, (split_parts_iff _ _).mp rfl,
    standsFor_held _, .literal (.plain numeral) (by decide) (by decide), ?_⟩
  have equal : (evaluate (some "$id == 9007199254740992") (holding 9007199254740993)).holds =
      true := by decide +kernel
  intro right
  exact absurd (right.mp equal) (by decide : (9007199254740993 : Int) ≠ 9007199254740992)

/-- The least whole number of a value is told from the greatest one. -/
theorem whole_numbers_compared_extremes :
    ∃ parts : Split, parts.Cuts (Text.trim "$id < 18446744073709551615".toList) ∧
      StandsFor (holding (-9223372036854775808)) (Text.trim parts.left) (-9223372036854775808) ∧
      StandsFor (holding (-9223372036854775808)) (Text.trim parts.right) 18446744073709551615 ∧
      Binary64.Separate (-9223372036854775808) 18446744073709551615 ∧
      (evaluate (some "$id < 18446744073709551615")
        (holding (-9223372036854775808))).holds = true := by
  have numeral : IsNumeral "18446744073709551615".toList 18446744073709551615 :=
    ⟨by decide, by decide, by decide⟩
  have cuts : (⟨"$id ".toList, .less, " 18446744073709551615".toList⟩ : Split).Cuts
      (Text.trim "$id < 18446744073709551615".toList) := (split_parts_iff _ _).mp rfl
  have literal : StandsFor (holding (-9223372036854775808))
      (Text.trim " 18446744073709551615".toList) 18446744073709551615 :=
    .literal (.plain numeral) (by decide) (by decide)
  have separate : Binary64.Separate (-9223372036854775808) 18446744073709551615 :=
    .inr (by decide +kernel)
  obtain ⟨-, -, right, -, -⟩ := whole_numbers_compared cuts (standsFor_held _) literal
  have less : (-9223372036854775808 : Int) < 18446744073709551615 := by decide
  exact ⟨_, cuts, standsFor_held _, literal, separate, (right separate).mpr less⟩

end Condition

end Workflow
