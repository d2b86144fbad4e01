import Workflow.Value

/-!
# Equality of values

Values are equal when they are the same but for the signs of the zeros in them. Taking these signs
away gives every value a normal form, and `Value.equal_iff` says that two values are equal just if
their normal forms are the same. All laws of an equivalence follow from that.
-/
namespace Workflow

/-! ## Numbers -/

namespace Binary64

/-- The number, where zero has lost its sign. -/
def normal (number : Binary64) : Binary64 := { number with negative := number.scaled < 0 }

/-- The sign that is left and the magnitude can be read off the value. -/
theorem normal_eq (number : Binary64) :
    number.normal = ⟨decide (number.scaled < 0), number.scaled.natAbs⟩ := by
  have magnitude : number.scaled.natAbs = number.units := by
    rw [scaled]
    split <;> simp
  rw [normal, magnitude]

/-- Zero has one value, whatever its sign. -/
theorem scaled_normal (number : Binary64) : number.normal.scaled = number.scaled := by
  rw [normal_eq, scaled]
  by_cases negative : number.scaled < 0
  · simp only [negative, decide_true, if_true]
    omega
  · simp only [negative, decide_false, Bool.false_eq_true, if_false]
    omega

/-- Numbers are equal just if their normal forms are the same. -/
theorem equal_iff (left right : Binary64) :
    left.equal right = true ↔ left.normal = right.normal := by
  rw [equal, beq_iff_eq]
  constructor
  · intro same
    rw [normal_eq, normal_eq, same]
  · intro same
    rw [← scaled_normal left, ← scaled_normal right, same]

end Binary64

namespace Number

/-- The number, where a floating-point zero has lost its sign. -/
def normal : Number → Number
  | .integer value => .integer value
  | .float value => .float value.normal

/-- Numbers are equal if their normal forms are the same. -/
theorem equal_iff (left right : Number) :
    left.equal right = true ↔ left.normal = right.normal := by
  cases left <;> cases right <;> simp [equal, normal, Binary64.equal_iff]

end Number

/-! ## Values -/

namespace Value

mutual

/-- The value, where every zero in it has lost its sign. -/
def normal : Value → Value
  | .number value => .number value.normal
  | .list items => .list (normalItems items)
  | .record fields => .record (normalFields fields)
  | other => other

/-- Every item in normal form. -/
def normalItems : List Value → List Value
  | [] => []
  | item :: rest => item.normal :: normalItems rest

/-- Every field with its value in normal form. -/
def normalFields : List (String × Value) → List (String × Value)
  | [] => []
  | (key, value) :: rest => (key, value.normal) :: normalFields rest

end

mutual

/-- Values are equal just if their normal forms are the same. -/
theorem equal_iff (left right : Value) : left.equal right = true ↔ left.normal = right.normal := by
  cases left with
  | null => cases right <;> simp [equal, normal]
  | bool left => cases right <;> simp [equal, normal]
  | number left => cases right <;> simp [equal, normal, Number.equal_iff]
  | text left => cases right <;> simp [equal, normal]
  | list lefts =>
    cases right with
    | list rights => simpa [equal, normal] using equalItems_iff lefts rights
    | null | bool | number | text | record => simp [equal, normal]
  | record lefts =>
    cases right with
    | record rights => simpa [equal, normal] using equalFields_iff lefts rights
    | null | bool | number | text | list => simp [equal, normal]

/-- Lists of values are equal if their normal forms are the same. -/
theorem equalItems_iff (lefts rights : List Value) :
    equalItems lefts rights = true ↔ normalItems lefts = normalItems rights := by
  cases lefts with
  | nil => cases rights <;> simp [equalItems, normalItems]
  | cons left lefts =>
    cases rights with
    | nil => simp [equalItems, normalItems]
    | cons right rights =>
      have first := equal_iff left right
      have others := equalItems_iff lefts rights
      simp only [equalItems, normalItems, Bool.and_eq_true, List.cons.injEq, first, others]

/-- Lists of fields are equal if their normal forms are the same. -/
theorem equalFields_iff (lefts rights : List (String × Value)) :
    equalFields lefts rights = true ↔ normalFields lefts = normalFields rights := by
  cases lefts with
  | nil => cases rights <;> simp [equalFields, normalFields]
  | cons left lefts =>
    obtain ⟨key, left⟩ := left
    cases rights with
    | nil => simp [equalFields, normalFields]
    | cons right rights =>
      obtain ⟨other, right⟩ := right
      have first := equal_iff left right
      have others := equalFields_iff lefts rights
      simp only [equalFields, normalFields, Bool.and_eq_true, beq_iff_eq, List.cons.injEq,
        Prod.mk.injEq, first, others]

end

end Value

end Workflow
