import Mathlib.Algebra.Group.Int.Defs
import Mathlib.Algebra.Group.Nat.Defs
import Workflow.Binary64

/-!
# Whole numbers as floating-point numbers

The format holds a whole number if its binary digits, from the first one to the last that is not
zero, are no more than 53 (`Precise`). Of any other it holds the nearest one that is:
`roundUnits_closest` says that no precise number is nearer than the rounded one, and the rest
follows from it. Precise numbers are held exactly, and rounding keeps the order, though it may make
different numbers equal.
-/
namespace Workflow.Binary64

/-! ## Quotients -/

/-- A rounded quotient is the whole quotient or the next number, whichever is not farther away. -/
theorem roundQuotient_cases (numerator denominator : Nat) :
    (roundQuotient numerator denominator = numerator / denominator ∧
      2 * (numerator % denominator) ≤ denominator) ∨
    (roundQuotient numerator denominator = numerator / denominator + 1 ∧
      denominator ≤ 2 * (numerator % denominator)) := by
  rw [roundQuotient]
  split
  · left
    omega
  · split
    · have parity := Nat.mod_two_eq_zero_or_one (numerator / denominator)
      omega
    · right
      omega

/-- No multiple of the denominator is nearer to the numerator than that of the rounded quotient. -/
theorem roundQuotient_closest {denominator : Nat} (positive : 0 < denominator)
    (numerator other : Nat) :
    ((numerator : Int) - (roundQuotient numerator denominator * denominator : Nat)).natAbs ≤
      ((numerator : Int) - (other * denominator : Nat)).natAbs := by
  have division := Nat.div_add_mod' numerator denominator
  have remainder : numerator % denominator < denominator := Nat.mod_lt _ positive
  have sides : other * denominator ≤ numerator / denominator * denominator ∨
      (numerator / denominator + 1) * denominator ≤ other * denominator := by
    rcases Nat.lt_or_ge (numerator / denominator) other with above | below
    · exact .inr (Nat.mul_le_mul_right _ above)
    · exact .inl (Nat.mul_le_mul_right _ below)
  rw [Nat.succ_mul] at sides
  rcases roundQuotient_cases numerator denominator with ⟨rounded, half⟩ | ⟨rounded, half⟩
  · rw [rounded]
    omega
  · rw [rounded, Nat.succ_mul]
    omega

/-- A common factor of numerator and denominator does not change the rounded quotient. -/
theorem roundQuotient_mul {factor : Nat} (positive : 0 < factor) (numerator denominator : Nat) :
    roundQuotient (numerator * factor) (denominator * factor) =
      roundQuotient numerator denominator := by
  have less : 2 * (numerator % denominator * factor) < denominator * factor ↔
      2 * (numerator % denominator) < denominator := by
    rw [← Nat.mul_assoc]
    exact Nat.mul_lt_mul_right positive
  have half : 2 * (numerator % denominator * factor) = denominator * factor ↔
      2 * (numerator % denominator) = denominator := by
    rw [← Nat.mul_assoc]
    exact Nat.mul_left_inj (Nat.ne_of_gt positive)
  simp only [roundQuotient, Nat.mul_div_mul_right _ _ positive, Nat.mul_mod_mul_right, less, half]

/-! ## Rounding to 53 binary digits -/

/-- The number is a product of one below `2 ^ 53` and a power of two. -/
def Precise (value : Nat) : Prop :=
  ∃ significand exponent : Nat, significand < 2 ^ 53 ∧ value = significand * 2 ^ exponent

/-- Numbers up to the 53rd power of two are precise. -/
theorem Precise.of_le {value : Nat} (small : value ≤ 2 ^ 53) : Precise value := by
  by_cases below : value < 2 ^ 53
  · exact ⟨value, 0, below, (Nat.mul_one value).symm⟩
  · have whole : value = 1 * 2 ^ 53 := by omega
    exact ⟨1, 53, by decide, whole⟩

/-- A precise number stays precise when it is multiplied by a power of two. -/
theorem Precise.mul {value : Nat} (precise : Precise value) (shift : Nat) :
    Precise (value * 2 ^ shift) := by
  obtain ⟨significand, exponent, small, rfl⟩ := precise
  exact ⟨significand, exponent + shift, small, by rw [Nat.pow_add, Nat.mul_assoc]⟩

/-- The distance of neighbouring numbers is a power of two, by the magnitude of the number. -/
theorem spacing_eq (value : Nat) : spacing value = 2 ^ (value.log2 - 52) := by
  rw [spacing]
  split
  · have none : value.log2 - 52 = 0 := by omega
    rw [none, Nat.pow_zero]
  · rfl

/-- Neighbouring numbers are some distance apart. -/
theorem spacing_pos (value : Nat) : 0 < spacing value := by
  rw [spacing_eq]
  exact Nat.two_pow_pos _

/-- A number is rounded to the nearest multiple of the distance between its neighbours. -/
theorem roundUnits_eq (value : Nat) :
    roundUnits value 1 = roundQuotient value (spacing value) * spacing value := by
  rw [roundUnits, spacing, Nat.div_one]
  split
  · rw [Nat.mul_one]
  · simp only [Nat.one_mul]

/-- A number has at most 53 bits when it is counted in its spacing. -/
theorem lt_mul_spacing (value : Nat) : value < 2 ^ 53 * spacing value := by
  have size : value < 2 ^ (value.log2 + 1) := Nat.lt_log2_self
  have exponent : value.log2 + 1 ≤ 53 + (value.log2 - 52) := by omega
  rw [spacing_eq, ← Nat.pow_add]
  exact Nat.lt_of_lt_of_le size (Nat.pow_le_pow_right (by decide) exponent)

/-- The rounded number is one of the format. -/
theorem roundUnits_precise (value : Nat) : Precise (roundUnits value 1) := by
  have quotient : value / spacing value < 2 ^ 53 :=
    (Nat.div_lt_iff_lt_mul (spacing_pos value)).mpr (lt_mul_spacing value)
  have rounded : roundQuotient value (spacing value) ≤ 2 ^ 53 := by
    rcases roundQuotient_cases value (spacing value) with ⟨same, -⟩ | ⟨same, -⟩ <;> omega
  rw [roundUnits_eq, spacing_eq] at *
  exact (Precise.of_le rounded).mul _

/-- No number of the format is nearer than the rounded one. -/
theorem roundUnits_closest (value : Nat) {other : Nat} (precise : Precise other) :
    ((value : Int) - roundUnits value 1).natAbs ≤ ((value : Int) - other).natAbs := by
  obtain ⟨significand, exponent, small, rfl⟩ := precise
  have nearest := roundQuotient_closest (spacing_pos value) value
  rw [roundUnits_eq]
  by_cases coarse : value.log2 - 52 ≤ exponent
  · -- The other number is a multiple of the distance, too.
    have multiple : significand * 2 ^ exponent =
        significand * 2 ^ (exponent - (value.log2 - 52)) * spacing value := by
      rw [spacing_eq, Nat.mul_assoc, ← Nat.pow_add, Nat.sub_add_cancel coarse]
    rw [multiple]
    exact nearest _
  · -- The other number is smaller than the power of two that begins the range of this one.
    have nonzero : value ≠ 0 := by
      rintro rfl
      exact coarse (Nat.zero_le exponent)
    have begins : 2 ^ value.log2 = 2 ^ 52 * spacing value := by
      rw [spacing_eq, ← Nat.pow_add]
      congr 1
      omega
    have above : 2 ^ value.log2 ≤ value := Nat.log2_self_le nonzero
    have below : significand * 2 ^ exponent ≤ 2 ^ value.log2 := by
      calc significand * 2 ^ exponent
          ≤ 2 ^ 53 * 2 ^ exponent := Nat.mul_le_mul_right _ (Nat.le_of_lt small)
        _ = 2 ^ (53 + exponent) := (Nat.pow_add 2 53 exponent).symm
        _ ≤ 2 ^ value.log2 := Nat.pow_le_pow_right (by decide) (by omega)
    have first := nearest (2 ^ 52)
    rw [← begins] at first
    omega

/-- Rounding leaves precise numbers as they are. -/
theorem roundUnits_of_precise {value : Nat} (precise : Precise value) :
    roundUnits value 1 = value := by
  have nearest := roundUnits_closest value precise
  omega

/-- Rounding keeps the order. -/
theorem roundUnits_mono {value other : Nat} (ordered : value ≤ other) :
    roundUnits value 1 ≤ roundUnits other 1 := by
  -- Were the results in the other order, each would be at least as near to both numbers.
  have first := roundUnits_closest value (roundUnits_precise other)
  have second := roundUnits_closest other (roundUnits_precise value)
  by_cases same : value = other
  · exact Nat.le_of_eq (congrArg (roundUnits · 1) same)
  · omega

/-- It makes no difference in which units a number is counted. -/
theorem roundUnits_mul (value shift : Nat) :
    roundUnits (value * 2 ^ shift) 1 = roundUnits value 1 * 2 ^ shift := by
  by_cases precise : Precise value
  · rw [roundUnits_of_precise precise, roundUnits_of_precise (precise.mul shift)]
  · have large : 2 ^ 53 < value := by
      apply Nat.lt_of_not_le
      exact fun small => precise (.of_le small)
    have nonzero : value ≠ 0 := by omega
    have size : 53 ≤ value.log2 := (Nat.le_log2 nonzero).mpr (Nat.le_of_lt large)
    have shifted : (value * 2 ^ shift).log2 = value.log2 + shift := by
      apply (Nat.log2_eq_iff (Nat.mul_ne_zero nonzero (Nat.ne_of_gt (Nat.two_pow_pos _)))).mpr
      rw [Nat.add_right_comm, Nat.pow_add, Nat.pow_add _ _ shift]
      exact ⟨Nat.mul_le_mul_right _ (Nat.log2_self_le nonzero),
        Nat.mul_lt_mul_of_pos_right Nat.lt_log2_self (Nat.two_pow_pos _)⟩
    have distance : spacing (value * 2 ^ shift) = spacing value * 2 ^ shift := by
      rw [spacing_eq, spacing_eq, shifted, ← Nat.pow_add]
      congr 1
      omega
    rw [roundUnits_eq, roundUnits_eq, distance, roundQuotient_mul (Nat.two_pow_pos _),
      Nat.mul_assoc]

/-! ## Whole numbers with a sign -/

/-- The whole number of the format that is nearest to a whole number. -/
def nearest (value : Int) : Int :=
  if value < 0 then -roundUnits value.natAbs 1 else roundUnits value.natAbs 1

/-- Rounding whole numbers keeps their order. -/
theorem nearest_mono {value other : Int} (ordered : value ≤ other) :
    nearest value ≤ nearest other := by
  rw [nearest, nearest]
  split
  · split
    · have magnitudes := roundUnits_mono (by omega : other.natAbs ≤ value.natAbs)
      omega
    · omega
  · split
    · omega
    · have magnitudes := roundUnits_mono (by omega : value.natAbs ≤ other.natAbs)
      omega

/-- Rounding leaves precise whole numbers of either sign as they are. -/
theorem nearest_of_precise {value : Int} (precise : Precise value.natAbs) :
    nearest value = value := by
  rw [nearest, roundUnits_of_precise precise]
  split <;> omega

/-- The nearest number of a natural number is its rounded magnitude. -/
theorem nearest_natCast (value : Nat) : nearest value = roundUnits value 1 := by
  rw [nearest, if_neg (by omega), Int.natAbs_natCast]

/-- The nearest number of a negative one is its rounded magnitude with the sign. -/
theorem nearest_neg (value : Nat) : nearest (-value) = -roundUnits value 1 := by
  rw [nearest, Int.natAbs_neg, Int.natAbs_natCast]
  split
  · rfl
  · have zero : value = 0 := by omega
    subst zero
    decide

/-- There is a power of two of units in one. -/
theorem unitsPerOne_power : ∃ exponent, unitsPerOne = 2 ^ exponent :=
  ⟨unitsPerOne.log2, by decide +kernel⟩

/-- A whole number is rounded alike whether it is counted in units or in ones. -/
theorem roundUnits_unitsPerOne (value : Nat) :
    roundUnits (value * unitsPerOne) 1 = roundUnits value 1 * unitsPerOne := by
  obtain ⟨exponent, power⟩ := unitsPerOne_power
  rw [power]
  exact roundUnits_mul value exponent

/-- A rounded magnitude and a sign make the number nearest to a whole number, where the sign of zero
does not matter. -/
theorem scaled_rounded (negative : Bool) (value : Nat) :
    scaled ⟨negative, roundUnits (value * unitsPerOne) 1⟩ =
      nearest (if negative then -(value : Int) else value) * unitsPerOne := by
  rw [roundUnits_unitsPerOne, scaled]
  cases negative with
  | true =>
    rw [if_pos rfl, if_pos rfl, nearest_neg, Int.neg_mul]
    exact congrArg Neg.neg (Int.natCast_mul _ _)
  | false =>
    rw [if_neg Bool.false_ne_true, if_neg Bool.false_ne_true, nearest_natCast]
    exact Int.natCast_mul _ _

/-- A number made from a whole number has the value of the nearest one. -/
theorem scaled_ofInt (value : Int) : (ofInt value).scaled = nearest value * unitsPerOne := by
  have signed : (if decide (value < 0) then -(value.natAbs : Int) else value.natAbs) = value := by
    by_cases negative : value < 0
    · rw [if_pos (decide_eq_true negative)]
      omega
    · rw [if_neg (by simpa using negative)]
      omega
  rw [ofInt, scaled_rounded, signed]

end Workflow.Binary64
