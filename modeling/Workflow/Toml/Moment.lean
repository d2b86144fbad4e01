/-!
# Dates and times

A moment is a date, a time of day, or both with an optional offset. Its normal text separates
date and time by `T`, writes seconds always and the fraction without trailing zeros, at most nine
digits of it, and an offset as `Z` or as hours and minutes.
-/
namespace Workflow.Toml.Moment

/-- The number that two digits denote. -/
def twoDigits? (tens ones : Char) : Option Nat :=
  if tens.isDigit && ones.isDigit then
    some ((tens.toNat - '0'.toNat) * 10 + (ones.toNat - '0'.toNat))
  else none

/-- A year has a 29th of February. -/
def isLeapYear (year : Nat) : Bool := (year % 4 == 0 && year % 100 != 0) || year % 400 == 0

/-- The number of days of a month. -/
def daysOf (year month : Nat) : Nat :=
  if month = 2 then if isLeapYear year then 29 else 28
  else if month = 4 ∨ month = 6 ∨ month = 9 ∨ month = 11 then 30
  else 31

/-- Read a date at the front: its normal text, and the rest. -/
def date? : List Char → Option (List Char × List Char)
  | a :: b :: c :: d :: '-' :: e :: f :: '-' :: g :: h :: rest => do
    let century ← twoDigits? a b
    let year ← twoDigits? c d
    let month ← twoDigits? e f
    let day ← twoDigits? g h
    guard (1 ≤ month ∧ month ≤ 12 ∧ 1 ≤ day ∧ day ≤ daysOf (century * 100 + year) month)
    some ([a, b, c, d, '-', e, f, '-', g, h], rest)
  | _ => none

/-- The normal text of the digits of a fraction: at most nine, no zeros at the end. -/
def fractionText (digits : List Char) : List Char :=
  match ((digits.take 9).reverse.dropWhile (· = '0')).reverse with
  | [] => []
  | kept => '.' :: kept

/-- Read the fraction of a second at the front, if there is one. -/
def fraction? : List Char → Option (List Char × List Char)
  | '.' :: rest =>
    match rest.takeWhile Char.isDigit with
    | [] => none
    | digits => some (fractionText digits, rest.dropWhile Char.isDigit)
  | rest => some ([], rest)

/-- Read a time of day at the front; seconds may be left out and count as zero. -/
def time? : List Char → Option (List Char × List Char)
  | a :: b :: ':' :: c :: d :: rest => do
    let hour ← twoDigits? a b
    let minute ← twoDigits? c d
    guard (hour ≤ 23 ∧ minute ≤ 59)
    match rest with
    | ':' :: e :: f :: rest =>
      let second ← twoDigits? e f
      guard (second ≤ 60)
      let (fraction, rest) ← fraction? rest
      some ([a, b, ':', c, d, ':', e, f] ++ fraction, rest)
    | rest => some ([a, b, ':', c, d, ':', '0', '0'], rest)
  | _ => none

/-- Read the offset at the end of a date with a time; there may be none. -/
def offset? : List Char → Option (List Char)
  | [] => some []
  | ['Z'] | ['z'] => some ['Z']
  | [sign, a, b, ':', c, d] => do
    let hours ← twoDigits? a b
    let minutes ← twoDigits? c d
    guard ((sign = '+' ∨ sign = '-') ∧ hours ≤ 23 ∧ minutes ≤ 59)
    some [if hours = 0 ∧ minutes = 0 then '+' else sign, a, b, ':', c, d]
  | _ => none

/-- The normal text of a moment. -/
def ofText? (text : List Char) : Option String :=
  match date? text with
  | some (date, []) => some (String.ofList date)
  | some (date, separator :: rest) => do
    guard (separator = 'T' ∨ separator = 't' ∨ separator = ' ')
    let (time, rest) ← time? rest
    let offset ← offset? rest
    some (String.ofList (date ++ 'T' :: time ++ offset))
  | none =>
    match time? text with
    | some (time, []) => some (String.ofList time)
    | _ => none

end Workflow.Toml.Moment
