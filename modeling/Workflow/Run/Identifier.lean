/-!
# Identifiers of runs

A run that is given no identifier gets a fresh one: a fixed beginning and a UUID of version 7, which
holds the time in its first 48 bits and chance in the others, in lower-case hexadecimal digits.
-/
namespace Workflow.Identifier

/-- The lowest hexadecimal digits of a number, as many as asked for. -/
def hexDigits (value : Nat) : Nat → List Char
  | 0 => []
  | count + 1 => hexDigits (value / 16) count ++ [Nat.digitChar (value % 16)]

/-- The UUID of a time in milliseconds and two random numbers. -/
def uuid (milliseconds first second : Nat) : String :=
  let time := hexDigits milliseconds 12
  String.ofList (time.take 8 ++ '-' :: time.drop 8 ++ '-' :: '7' :: hexDigits first 3 ++
    '-' :: Nat.digitChar (8 + second % 4) :: hexDigits (second / 4) 3 ++
    '-' :: hexDigits (second / 4 / Nat.pow 16 3) 12)

/-- What fresh identifiers begin with. -/
def beginning : String := "exec-"

/-- A fresh identifier. -/
def fresh (milliseconds first second : Nat) : String :=
  beginning ++ uuid milliseconds first second

end Workflow.Identifier
