import Workflow.Binary64

/-!
# Reading a floating-point number from its text

The grammar is a sign, digits with an optional point among or around them, and an optional
exponent; the digits and the exponent each need at least one digit. The number is the one nearest
to the decimal, rounded once. A text whose number is too large denotes no finite number.
-/
namespace Workflow.Binary64

/-- The whole number that digits denote. -/
def digitsValue (digits : List Char) : Nat :=
  digits.foldl (fun value digit => value * 10 + (digit.toNat - '0'.toNat)) 0

/-- A sign at the front: whether it is minus, and the rest. -/
def splitSign : List Char → Bool × List Char
  | '-' :: rest => (true, rest)
  | '+' :: rest => (false, rest)
  | rest => (false, rest)

/-- The digits at the front, and the rest. -/
def splitDigits (characters : List Char) : List Char × List Char :=
  (characters.takeWhile Char.isDigit, characters.dropWhile Char.isDigit)

/-- The power of ten written at the end of a number: zero when nothing is written. -/
def exponent? : List Char → Option Int
  | [] => some 0
  | mark :: rest =>
    let (negative, digits) := splitSign rest
    if (mark = 'e' ∨ mark = 'E') ∧ digits ≠ [] ∧ digits.all Char.isDigit then
      some (if negative then -digitsValue digits else digitsValue digits)
    else none

/-- The digits after a point, and the rest. -/
def splitFraction : List Char → List Char × List Char
  | '.' :: rest => splitDigits rest
  | rest => ([], rest)

/-- The finite number a text denotes. -/
def ofText? (text : List Char) : Option Binary64 :=
  let (negative, text) := splitSign text
  let (whole, rest) := splitDigits text
  let (fraction, rest) := splitFraction rest
  if whole = [] ∧ fraction = [] then none
  else (exponent? rest).bind fun exponent =>
    ofDecimal? negative (digitsValue (whole ++ fraction)) (exponent - fraction.length)

end Workflow.Binary64
