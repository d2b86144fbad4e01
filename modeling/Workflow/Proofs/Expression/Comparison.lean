import Workflow.Expression.Condition
import Workflow.Proofs.Value.Equality

/-!
# Comparing operands

What a comparison sees of an operand is its measure: the number that the operand denotes, or, if it
denotes none, the normal form of its value. Numbers are ordered; measures can always be told apart;
and no comparison looks at anything else of an operand (`compare_eq`). Hence equality is an
equivalence that every comparison respects, and the other laws are those of the order of integers.
-/
namespace Workflow.Condition

/-- The operand is a number, or a text that reads as one without the blank space around it. -/
inductive IsNumeric : Option Value → Prop where
  | number (number : Number) : IsNumeric (some (.number number))
  | text {text : String} {number : Binary64}
      (reads : Binary64.ofText? (Text.trim text.toList) = some number) :
      IsNumeric (some (.text text))

/-! ## Measures -/

/-- What a comparison sees of an operand. -/
inductive Measure where
  /-- The value of a number, in units. -/
  | number (value : Int)
  /-- The normal form of any other value. -/
  | other (value : Value)
deriving DecidableEq

/-- The measure of an operand; an undefined one is measured as null. -/
def measure (operand : Option Value) : Measure :=
  match numeric? operand with
  | some number => .number number.scaled
  | none => .other (operand.getD .null).normal

/-- What a comparison says of two measures. -/
def Measure.compare (comparison : Comparison) (left right : Measure) : Bool :=
  match comparison, left, right with
  | .equal, left, right => left = right
  | .unequal, left, right => left ≠ right
  | .less, .number left, .number right => left < right
  | .greater, .number left, .number right => right < left
  | .atMost, .number left, .number right => left ≤ right
  | .atLeast, .number left, .number right => right ≤ left
  | _, _, _ => false

/-- The measure of a numeric operand is its number. -/
theorem measure_of_numeric {operand : Option Value} {number : Binary64}
    (denotes : numeric? operand = some number) : measure operand = .number number.scaled := by
  rw [measure, denotes]

/-- The measure of any other operand is its value, and null if there is none. -/
theorem measure_of_not_numeric {operand : Option Value} (denotes : numeric? operand = none) :
    measure operand = .other (operand.getD .null).normal := by
  rw [measure, denotes]

/-- The operands that are numeric are those measured by a number. -/
theorem isNumeric_iff (operand : Option Value) :
    IsNumeric operand ↔ ∃ value, measure operand = .number value := by
  constructor
  · rintro (number | reads)
    · exact ⟨_, measure_of_numeric rfl⟩
    · exact ⟨_, measure_of_numeric reads⟩
  · rintro ⟨value, measured⟩
    match operand with
    | some (.number number) => exact .number number
    | some (.text text) =>
      cases reads : numeric? (some (.text text)) with
      | some number => exact .text reads
      | none => simp [measure_of_not_numeric reads] at measured
    | none | some .null | some (.bool _) | some (.list _) | some (.record _) => cases measured

/-- Equal values denote numbers of one value, or both denote none. -/
theorem scaled_of_normal_eq {left right : Option Value}
    (same : (left.getD .null).normal = (right.getD .null).normal) :
    (numeric? left).map Binary64.scaled = (numeric? right).map Binary64.scaled := by
  -- Only the forms in which `numeric?` finds a number are looked at; the others agree at once.
  have seen (operand : Option Value) : (numeric? operand).map Binary64.scaled =
      (numeric? (some (operand.getD .null).normal)).map Binary64.scaled := by
    match operand with
    | none | some .null | some (.bool _) | some (.list _) | some (.record _) => rfl
    | some (.text text) => rfl
    | some (.number (.integer value)) => rfl
    | some (.number (.float value)) =>
      exact congrArg some (Binary64.scaled_normal value).symm
  rw [seen left, seen right, same]

/-- Two numbers compare as their measures do. -/
theorem compareNumbers_eq (comparison : Comparison) (left right : Binary64) :
    compareNumbers comparison left right =
      (Measure.number left.scaled).compare comparison (.number right.scaled) := by
  have same : left.equal right = decide (left.scaled = right.scaled) := rfl
  cases comparison with
  | greater | less => rfl
  | atLeast | atMost =>
    simp only [compareNumbers, Measure.compare, Binary64.less, ← decide_not, Int.not_lt]
  | equal | unequal => simp [compareNumbers, Measure.compare, same]

/-- Where one operand denotes no number, their values are equal just if their measures are the
same. -/
theorem equal_iff_measure {left right : Option Value}
    (unnumeric : numeric? left = none ∨ numeric? right = none) :
    (left.getD .null).equal (right.getD .null) = true ↔ measure left = measure right := by
  rw [Value.equal_iff]
  constructor
  · intro same
    have alike := scaled_of_normal_eq same
    have neither : numeric? left = none ∧ numeric? right = none := by
      rcases unnumeric with missing | missing
      · exact ⟨missing, by simpa [missing] using alike.symm⟩
      · exact ⟨by simpa [missing] using alike, missing⟩
    rw [measure_of_not_numeric neither.1, measure_of_not_numeric neither.2, same]
  · intro same
    have neither : numeric? left = none ∧ numeric? right = none := by
      cases first : numeric? left <;> cases second : numeric? right <;> simp_all [measure]
    rw [measure_of_not_numeric neither.1, measure_of_not_numeric neither.2] at same
    exact Measure.other.inj same

/-- Two values compare as their measures do, unless both are numeric. -/
theorem compareValues_eq (comparison : Comparison) {left right : Option Value}
    (unnumeric : numeric? left = none ∨ numeric? right = none) :
    compareValues comparison (left.getD .null) (right.getD .null) =
      (measure left).compare comparison (measure right) := by
  have same : (left.getD .null).equal (right.getD .null) =
      decide (measure left = measure right) := by
    rw [Bool.eq_iff_iff, decide_eq_true_eq]
    exact equal_iff_measure unnumeric
  cases comparison with
  | equal | unequal => simp [compareValues, Measure.compare, same]
  | greater | less | atLeast | atMost =>
    rcases unnumeric with missing | missing
    · rw [measure_of_not_numeric missing]
      rfl
    · rw [measure_of_not_numeric missing]
      cases measure left <;> rfl

/-- A comparison looks at nothing but the measures of its operands. -/
theorem compare_eq (comparison : Comparison) (left right : Option Value) :
    compare comparison left right = (measure left).compare comparison (measure right) := by
  rw [compare]
  match first : numeric? left, second : numeric? right with
  | some number, some other =>
    rw [measure_of_numeric first, measure_of_numeric second]
    exact compareNumbers_eq comparison number other
  | none, _ => exact compareValues_eq comparison (.inl first)
  | some _, none => exact compareValues_eq comparison (.inr second)

/-! ## The laws -/

/-- The operands of one measure are those that are equal. -/
theorem compare_equal_iff (left right : Option Value) :
    compare .equal left right = true ↔ measure left = measure right := by
  rw [compare_eq, Measure.compare, decide_eq_true_eq]

/-- Equal operands can stand for each other on both sides of every comparison. -/
theorem compare_congr {left right : Option Value} (equal : compare .equal left right = true)
    (comparison : Comparison) (other : Option Value) :
    compare comparison left other = compare comparison right other ∧
      compare comparison other left = compare comparison other right := by
  have same := (compare_equal_iff left right).mp equal
  simp only [compare_eq, same, and_self]

/-- Of two operands the order is known only if both are numeric. -/
theorem compare_eq_false {left right : Option Value}
    (unnumeric : ¬(IsNumeric left ∧ IsNumeric right)) {comparison : Comparison}
    (unequal : comparison ≠ .unequal) (equal : comparison ≠ .equal) :
    compare comparison left right = false := by
  rw [isNumeric_iff, isNumeric_iff] at unnumeric
  rw [compare_eq]
  cases first : measure left <;> cases second : measure right <;> cases comparison <;>
    simp_all [Measure.compare]

/-- Of two numeric operands one is less, or they are equal, or one is greater. -/
theorem compare_trichotomy {left right : Option Value} (first : IsNumeric left)
    (second : IsNumeric right) :
    [Comparison.less, .equal, .greater].countP (compare · left right) = 1 := by
  obtain ⟨value, measured⟩ := (isNumeric_iff left).mp first
  obtain ⟨other, otherMeasured⟩ := (isNumeric_iff right).mp second
  have order : value < other ∨ value = other ∨ other < value := Int.lt_trichotomy value other
  simp only [List.countP_cons, List.countP_nil, compare_eq, measured, otherMeasured,
    Measure.compare, Measure.number.injEq, decide_eq_true_eq]
  rcases order with before | same | after
  · simp [before, Int.ne_of_lt before, Int.le_of_lt before]
  · simp [same]
  · simp [after, Int.ne_of_gt after, Int.le_of_lt after]

/-- Of numeric operands, one is at least the other if it is greater or equal. -/
theorem compare_atLeast {left right : Option Value} (first : IsNumeric left)
    (second : IsNumeric right) : compare .atLeast left right =
      (compare .greater left right || compare .equal left right) := by
  obtain ⟨value, measured⟩ := (isNumeric_iff left).mp first
  obtain ⟨other, otherMeasured⟩ := (isNumeric_iff right).mp second
  rw [Bool.eq_iff_iff]
  simp only [compare_eq, measured, otherMeasured, Measure.compare, Measure.number.injEq,
    Bool.or_eq_true, decide_eq_true_eq]
  omega

/-- Comparing is coherent: equality is an equivalence that identifies what is undefined with null
and that every comparison respects; each comparison agrees with its opposite and its mirror; and the
order is that of numbers, which holds between nothing else. -/
theorem compare_coherent (left right third : Option Value) :
    compare .equal left left = true ∧
    compare .equal left right = compare .equal right left ∧
    (compare .equal left right = true → compare .equal right third = true →
      compare .equal left third = true) ∧
    compare .equal none (some .null) = true ∧
    compare .unequal left right = !compare .equal left right ∧
    compare .greater left right = compare .less right left ∧
    compare .atLeast left right = compare .atMost right left ∧
    (IsNumeric left → IsNumeric right →
      [Comparison.less, .equal, .greater].countP (compare · left right) = 1 ∧
      compare .atLeast left right =
        (compare .greater left right || compare .equal left right)) ∧
    (¬(IsNumeric left ∧ IsNumeric right) →
      ∀ comparison ∈ [Comparison.greater, .less, .atLeast, .atMost],
        compare comparison left right = false) ∧
    (compare .equal left right = true → ∀ comparison,
      compare comparison left third = compare comparison right third ∧
      compare comparison third left = compare comparison third right) := by
  refine ⟨?reflexive, ?symmetric, ?transitive, rfl, ?opposite, ?mirrored, ?mirroredEqual,
    fun first second => ⟨compare_trichotomy first second, compare_atLeast first second⟩,
    ?unordered, fun equal comparison => compare_congr equal comparison third⟩
  case reflexive => exact (compare_equal_iff left left).mpr rfl
  case symmetric =>
    rw [Bool.eq_iff_iff, compare_equal_iff, compare_equal_iff]
    exact eq_comm
  case transitive =>
    intro first second
    rw [(compare_congr first .equal third).1]
    exact second
  case opposite => simp [compare_eq, Measure.compare]
  case mirrored | mirroredEqual =>
    rw [compare_eq, compare_eq]
    cases measure left <;> cases measure right <;> rfl
  case unordered =>
    intro unnumeric comparison orders
    apply compare_eq_false unnumeric
    · rintro rfl
      revert orders
      decide
    · rintro rfl
      revert orders
      decide

/-- A decimal text with blanks compares coherently with a number and with another text of the same
value; where there is nothing, no number is compared. -/
theorem compare_coherent_decimal :
    IsNumeric (some (.text " 1e0 ")) ∧ IsNumeric (some (.ofInt 1)) ∧
    compare .equal (some (.text " 1e0 ")) (some (.ofInt 1)) = true ∧
    compare .equal (some (.ofInt 1)) (some (.text "1.0")) = true ∧
    compare .equal (some (.text " 1e0 ")) (some (.text "1.0")) = true ∧
    [Comparison.less, .equal, .greater].countP
      (compare · (some (.text " 1e0 ")) (some (.ofInt 1))) = 1 ∧
    compare .atMost (some (.text " 1e0 ")) (some (.text "1.0")) =
      compare .atMost (some (.ofInt 1)) (some (.text "1.0")) ∧
    ¬(IsNumeric none ∧ IsNumeric (some (.ofInt 1))) ∧
    compare .less none (some (.ofInt 1)) = false := by
  have reads : Binary64.ofText? (Text.trim " 1e0 ".toList) =
      some ⟨false, Binary64.unitsPerOne⟩ := by decide +kernel
  have text : IsNumeric (some (.text " 1e0 ")) := .text reads
  have number : IsNumeric (some (.ofInt 1)) := .number (.integer 1)
  have undefined : ¬(IsNumeric none ∧ IsNumeric (some (.ofInt 1))) := by
    rintro ⟨none, -⟩
    cases none
  have first : compare .equal (some (.text " 1e0 ")) (some (.ofInt 1)) = true := by
    decide +kernel
  have second : compare .equal (some (.ofInt 1)) (some (.text "1.0")) = true := by
    decide +kernel
  obtain ⟨-, -, transitive, -, -, -, -, ordered, -, congruent⟩ :=
    compare_coherent (some (.text " 1e0 ")) (some (.ofInt 1)) (some (.text "1.0"))
  obtain ⟨-, -, -, -, -, -, -, -, unordered, -⟩ :=
    compare_coherent none (some (.ofInt 1)) none
  exact ⟨text, number, first, second, transitive first second, (ordered text number).1,
    (congruent first .atMost).1, undefined, unordered undefined .less (by decide)⟩

end Workflow.Condition
