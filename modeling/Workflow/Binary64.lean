/-!
# Finite binary floating-point numbers of 64 bits

Every finite number of the format is a whole multiple of the smallest positive one, `2 ^ -1074`,
so a number is kept as its sign and that multiple. Comparison is comparison of integers, and
rounding a quotient to the format is one division of naturals, to nearest with ties to even.
The sign of zero is kept, because it is written out, and ignored by comparison.
-/
namespace Workflow

/-- A finite number of 64 bits: a sign and a magnitude counted in units of `2 ^ -1074`. -/
structure Binary64 where
  negative : Bool
  /-- The magnitude in units of `2 ^ -1074`. -/
  units : Nat
deriving DecidableEq, Repr

namespace Binary64

/-- The number of units in one. -/
def unitsPerOne : Nat := Nat.pow 2 1074

/-- The first magnitude, in units, that is too large for the format. -/
def overflow : Nat := Nat.pow 2 2098

/-- The whole number nearest to a quotient; of two equally near ones the even one. -/
def roundQuotient (numerator denominator : Nat) : Nat :=
  let quotient := numerator / denominator
  let remainder := numerator % denominator
  if 2 * remainder < denominator then quotient
  else if 2 * remainder = denominator then quotient + quotient % 2
  else quotient + 1

/-- The number of units nearest to a quotient of units that the format can hold: a magnitude of
more than 53 binary digits is rounded to a multiple of the power of two that leaves 53. -/
def roundUnits (numerator denominator : Nat) : Nat :=
  let size := (numerator / denominator).log2
  if size < 53 then roundQuotient numerator denominator
  else
    let step := Nat.pow 2 (size - 52)
    roundQuotient numerator (denominator * step) * step

/-- The number nearest to a quotient of units, or nothing when it is too large. -/
def ofUnits? (negative : Bool) (numerator denominator : Nat) : Option Binary64 :=
  let units := roundUnits numerator denominator
  if units < overflow then some ⟨negative, units⟩ else none

/-- Zero with a plus sign. -/
def zero : Binary64 := ⟨false, 0⟩

/-- The number nearest to a whole number, whose magnitude the caller keeps below `2 ^ 1023`. -/
def ofInt (value : Int) : Binary64 :=
  ⟨value < 0, roundUnits (value.natAbs * unitsPerOne) 1⟩

/-- The number of decimal digits of a natural number. -/
def decimalLength (value : Nat) : Nat := (Nat.toDigits 10 value).length

/-- The number nearest to `digits * 10 ^ exponent`, or nothing when it is too large. Exponents far
outside the range of the format are decided without computing the power. -/
def ofDecimal? (negative : Bool) (digits : Nat) (exponent : Int) : Option Binary64 :=
  if digits = 0 then some ⟨negative, 0⟩
  else if 400 < exponent then none
  else if exponent + decimalLength digits < -400 then some ⟨negative, 0⟩
  else if 0 ≤ exponent then ofUnits? negative (digits * Nat.pow 10 exponent.toNat * unitsPerOne) 1
  else ofUnits? negative (digits * unitsPerOne) (Nat.pow 10 exponent.natAbs)

/-- The magnitude with its sign, in units. -/
def scaled (number : Binary64) : Int :=
  if number.negative then -number.units else number.units

/-- Numbers are equal when their values are; the two zeros are. -/
def equal (left right : Binary64) : Bool := left.scaled == right.scaled

/-- The order of the values. -/
def less (left right : Binary64) : Bool := left.scaled < right.scaled

/-- The number is zero, of either sign. -/
def isZero (number : Binary64) : Bool := number.units == 0

/-- The rounded product, or nothing when it is too large. -/
def multiply? (left right : Binary64) : Option Binary64 :=
  ofUnits? (left.negative != right.negative) (left.units * right.units) unitsPerOne

/-- The rounded quotient, or nothing when it is too large; the divisor is not zero. -/
def divide? (left right : Binary64) : Option Binary64 :=
  ofUnits? (left.negative != right.negative) (left.units * unitsPerOne) right.units

/-! ## Decimal digits -/

/-- The distance, in units, to the next larger number of the format. -/
def spacing (units : Nat) : Nat := if units.log2 < 53 then 1 else Nat.pow 2 (units.log2 - 52)

/-- The closed or open interval of reals that round to a magnitude, in quarters of a unit. -/
structure Rounding where
  centre : Nat
  lower : Nat
  upper : Nat
  /-- The bounds themselves round to the magnitude. -/
  closed : Bool

/-- The reals that round to a magnitude: half the distance to each neighbour, where the lower
neighbour of a power of two is twice as near, and the ends belong to an even significand. -/
def rounding (units : Nat) : Rounding :=
  let step := spacing units
  let below := if 1 < step ∧ units = Nat.pow 2 52 * step then step else 2 * step
  { centre := 4 * units
    lower := 4 * units - below
    upper := 4 * units + 2 * step
    closed := units / step % 2 == 0 }

/-- Decimal digits and the power of ten that scales them. -/
structure Decimal where
  digits : Nat
  exponent : Int
deriving DecidableEq, Repr

/-- A decimal as a quotient of quarter units. -/
def Decimal.quarters (decimal : Decimal) : Nat × Nat :=
  if 0 ≤ decimal.exponent then
    (decimal.digits * Nat.pow 10 decimal.exponent.toNat * (4 * unitsPerOne), 1)
  else (decimal.digits * (4 * unitsPerOne), Nat.pow 10 decimal.exponent.natAbs)

/-- A decimal rounds to the magnitude of the interval. -/
def Rounding.contains (interval : Rounding) (decimal : Decimal) : Bool :=
  let (numerator, denominator) := decimal.quarters
  let lower := interval.lower * denominator
  let upper := interval.upper * denominator
  if interval.closed then lower ≤ numerator && numerator ≤ upper
  else lower < numerator && numerator < upper

/-- The distance of a decimal from the centre, as a multiple of its own denominator. -/
def Rounding.distance (interval : Rounding) (decimal : Decimal) : Nat :=
  let (numerator, denominator) := decimal.quarters
  let centre := interval.centre * denominator
  (numerator - centre) + (centre - numerator)

/-- The least power of ten above a magnitude, as its exponent. -/
def decimalOrder (units : Nat) : Int :=
  (decimalLength (units * Nat.pow 10 400 / unitsPerOne) : Int) - 400

/-- The multiple of a power of ten next below the centre of an interval. -/
def Rounding.below (interval : Rounding) (exponent : Int) : Decimal :=
  if 0 ≤ exponent then
    ⟨interval.centre / (4 * unitsPerOne * Nat.pow 10 exponent.toNat), exponent⟩
  else ⟨interval.centre * Nat.pow 10 exponent.natAbs / (4 * unitsPerOne), exponent⟩

/-- Which of two equally near decimals is taken. -/
inductive Tie where
  /-- The one with the even last digit. -/
  | toEven
  | upward
deriving DecidableEq, Repr

/-- Of a decimal and the next one after it, which are equally near, the first is taken. -/
def Tie.takesLower (tie : Tie) (lower : Decimal) : Bool :=
  match tie with
  | .toEven => lower.digits % 2 == 0
  | .upward => false

/-- The nearest decimal of one grid that rounds to the magnitude, if the grid has one. -/
def Rounding.onGrid? (interval : Rounding) (tie : Tie) (exponent : Int) : Option Decimal :=
  let low := interval.below exponent
  let high : Decimal := ⟨low.digits + 1, exponent⟩
  match interval.contains low, interval.contains high with
  | true, true =>
    if interval.distance low < interval.distance high then some low
    else if interval.distance high < interval.distance low then some high
    else if tie.takesLower low then some low else some high
  | true, false => some low
  | false, true => some high
  | false, false => none

/-- Remove trailing zeros from the digits, at most as many as the bound says. -/
def Decimal.strip : Nat → Decimal → Decimal
  | 0, decimal => decimal
  | bound + 1, decimal =>
    if decimal.digits ≠ 0 ∧ decimal.digits % 10 = 0 then
      Decimal.strip bound ⟨decimal.digits / 10, decimal.exponent + 1⟩
    else decimal

/-- The shortest decimal that rounds to a positive magnitude, and of those the nearest: the first
grid of one to seventeen digits that holds such a decimal decides. -/
def shortest (tie : Tie) (units : Nat) : Decimal :=
  let order := decimalOrder units
  let interval := rounding units
  let found := (List.range 17).findSome? fun count =>
    interval.onGrid? tie (order - (count + 1 : Nat))
  (found.getD ⟨units, 0⟩).strip 18

/-! ## Notation -/

/-- The digits of a decimal with the point set among or around them, zeros filled in, and at
least one digit after the point. -/
def Decimal.positional (decimal : Decimal) : String :=
  let digits := Nat.toDigits 10 decimal.digits
  if 0 ≤ decimal.exponent then
    String.ofList (digits ++ List.replicate decimal.exponent.toNat '0' ++ ['.', '0'])
  else
    let places := decimal.exponent.natAbs
    if digits.length ≤ places then
      String.ofList (['0', '.'] ++ List.replicate (places - digits.length) '0' ++ digits)
    else
      String.ofList (digits.take (digits.length - places) ++ '.' ::
        digits.drop (digits.length - places))

/-- One digit, the rest after a point, and the power of ten with its sign. -/
def Decimal.scientific (decimal : Decimal) : String :=
  let digits := Nat.toDigits 10 decimal.digits
  let power := decimal.exponent + (digits.length : Int) - 1
  let mantissa := match digits with
    | lead :: next :: rest => lead :: '.' :: next :: rest
    | _ => digits
  let sign := if power < 0 then "e-" else "e+"
  String.ofList mantissa ++ sign ++ toString power.natAbs

/-- The sign as it stands before the digits. -/
def signText (number : Binary64) : String := if number.negative then "-" else ""

/-- The text of a number in a value: the shortest digits that read back, with a point from
`0.00001` up to below `10 ^ 16` and in scientific notation outside. Of two equally near decimals
the one with the even last digit is written. -/
def text (number : Binary64) : String :=
  if number.isZero then number.signText ++ "0.0"
  else
    let decimal := shortest .toEven number.units
    let order := decimal.exponent + decimalLength decimal.digits
    let plain := decide (-5 < order) && decide (order ≤ 16)
    number.signText ++ if plain then decimal.positional else decimal.scientific

/-- The text of a number without any exponent: the shortest digits that read back. Of two equally
near decimals the one of greater magnitude is written. -/
def plainText (number : Binary64) : String :=
  if number.isZero then number.signText ++ "0.0"
  else number.signText ++ (shortest .upward number.units).positional

end Binary64

end Workflow
