import Workflow.Toml.Document
import Workflow.Toml.Moment
import Workflow.Binary64.Reader

/-!
# Unquoted scalars

The words `true`, `false`, `inf` and `nan`, numbers, dates and times. In a number an underscore
may stand between two digits, and a decimal number has no superfluous zero in front. A whole
number beyond 128 bits and a finite floating-point number that is too large are refused.
-/
namespace Workflow.Toml.Scalar

/-- Digits of a sort with single underscores between them, the underscores removed. -/
def digits? (isDigit : Char → Bool) : List Char → Option (List Char)
  | [] => none
  | [digit] => if isDigit digit then some [digit] else none
  | digit :: '_' :: rest =>
    if isDigit digit then (digits? isDigit rest).map (digit :: ·) else none
  | digit :: rest => if isDigit digit then (digits? isDigit rest).map (digit :: ·) else none

/-- Decimal digits without a superfluous zero in front. -/
def decimal? (text : List Char) : Option (List Char) := do
  let digits ← digits? Char.isDigit text
  guard (digits.length = 1 ∨ digits.head? ≠ some '0')
  some digits

/-- The value of a digit up to base sixteen. -/
def digitValue (digit : Char) : Nat :=
  if digit.isDigit then digit.toNat - '0'.toNat
  else if 'a' ≤ digit then digit.toNat - 'a'.toNat + 10
  else digit.toNat - 'A'.toNat + 10

/-- A digit of a base up to sixteen. -/
def isDigitOf (base : Nat) (character : Char) : Bool :=
  (character.isDigit || ('a' ≤ character && character ≤ 'f') ||
    ('A' ≤ character && character ≤ 'F')) && digitValue character < base

/-- The whole number that digits of a base denote. -/
def numberOf (base : Nat) (digits : List Char) : Nat :=
  digits.foldl (fun value digit => value * base + digitValue digit) 0

/-- A whole number of 128 bits, with a sign or without. -/
def checkedInteger? (value : Int) : Option Item :=
  if -(Nat.pow 2 127) ≤ value ∧ value < Nat.pow 2 128 then some (.integer value) else none

/-- A whole number: decimal with an optional sign, or of another base without one. -/
def integer? (word : List Char) : Option Item :=
  match word with
  | '0' :: 'x' :: rest =>
    (digits? (isDigitOf 16) rest).bind fun digits => checkedInteger? (numberOf 16 digits)
  | '0' :: 'o' :: rest =>
    (digits? (isDigitOf 8) rest).bind fun digits => checkedInteger? (numberOf 8 digits)
  | '0' :: 'b' :: rest =>
    (digits? (isDigitOf 2) rest).bind fun digits => checkedInteger? (numberOf 2 digits)
  | word =>
    let (negative, rest) := Binary64.splitSign word
    (decimal? rest).bind fun digits =>
      checkedInteger? (if negative then -numberOf 10 digits else numberOf 10 digits)

/-- The mark of an exponent. -/
def isExponentMark (character : Char) : Bool := character = 'e' || character = 'E'

/-- The exponent that stands after its mark: a sign and digits. -/
def exponent? (text : List Char) : Option Int :=
  let (negative, rest) := Binary64.splitSign text
  (digits? Char.isDigit rest).map fun digits =>
    if negative then -numberOf 10 digits else numberOf 10 digits

/-- A decimal number with a fraction, an exponent or both. -/
def real? (word : List Char) : Option Item := do
  let (negative, rest) := Binary64.splitSign word
  let mantissa := rest.takeWhile (!isExponentMark ·)
  guard ('.' ∈ mantissa ∨ mantissa ≠ rest)
  let exponent ← match rest.dropWhile (!isExponentMark ·) with
    | [] => some 0
    | _ :: rest => exponent? rest
  let whole ← decimal? (mantissa.takeWhile (· ≠ '.'))
  let fraction ← match mantissa.dropWhile (· ≠ '.') with
    | [] => some []
    | _ :: rest => digits? Char.isDigit rest
  let value ← Binary64.ofDecimal? negative (numberOf 10 (whole ++ fraction))
    (exponent - fraction.length)
  some (.real (.finite value))

/-- The words with a fixed meaning. -/
def constant? (word : List Char) : Option Item :=
  match String.ofList word with
  | "true" => some (.bool true)
  | "false" => some (.bool false)
  | "inf" | "+inf" => some (.real (.infinite false))
  | "-inf" => some (.real (.infinite true))
  | "nan" | "+nan" | "-nan" => some (.real .notANumber)
  | _ => none

/-- The scalar that a word denotes. -/
def ofWord? (word : List Char) : Option Item :=
  constant? word <|> integer? word <|> real? word <|> (Moment.ofText? word).map .moment

end Workflow.Toml.Scalar
