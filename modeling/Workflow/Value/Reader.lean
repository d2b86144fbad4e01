import Workflow.Value

/-!
# Reading a value from its text

A text is cut into tokens by one pass over its characters, and the tokens are assembled by one
pass over a stack of open lists and records, so that both passes are folds over their input.
Lists and records may be nested to a depth of 127.

A number with a fraction or an exponent, minus zero, and a whole number outside the ranges of 64
bits are floating-point numbers; one too large for the format is refused. Such a number is read
from at most nineteen or twenty leading digits and rounded twice: once for the digits, once for
the scaling by the power of ten.
-/
namespace Workflow.Value

/-! ## Numbers -/

/-- The largest whole number that is kept exactly. -/
def largestInteger : Nat := Nat.pow 2 64 - 1

/-- The value of a decimal digit. -/
def digitValue (character : Char) : Nat := character.toNat - '0'.toNat

/-- The digits of a number as far as they fit, and the power of ten that scales them. -/
structure Significand where
  /-- The leading digits as one whole number. -/
  digits : Nat
  /-- The power of ten. -/
  exponent : Int
  /-- A digit did not fit; later digits only count as places. -/
  full : Bool

/-- Read a digit before the point: one that no longer fits still moves the point. -/
def Significand.pushWhole (significand : Significand) (digit : Char) : Significand :=
  let digits := significand.digits * 10 + digitValue digit
  if significand.full || largestInteger < digits then
    { significand with exponent := significand.exponent + 1, full := true }
  else { significand with digits := digits }

/-- Read a digit after the point: one that no longer fits, and all after it, are left out. -/
def Significand.pushFraction (significand : Significand) (digit : Char) : Significand :=
  let digits := significand.digits * 10 + digitValue digit
  if significand.full || largestInteger < digits then { significand with full := true }
  else { significand with digits := digits, exponent := significand.exponent - 1 }

/-- The power of ten with the given exponent, rounded. -/
def powerOfTen (exponent : Nat) : Binary64 := (Binary64.ofDecimal? false 1 exponent).getD .zero

/-- Divide by a power of ten, by at most `10 ^ 308` at a time. The digits of a significand are
below `2 ^ 64`, so two such divisions leave zero and a third is never needed. -/
def scaleDown (number : Binary64) (exponent : Nat) : Option Binary64 :=
  if exponent ≤ 308 then number.divide? (powerOfTen exponent)
  else (number.divide? (powerOfTen 308)).bind fun smaller =>
    smaller.divide? (powerOfTen (min (exponent - 308) 308))

/-- The number of a significand: its digits rounded, then scaled and rounded again. -/
def Significand.toBinary64? (significand : Significand) (negative : Bool) : Option Binary64 :=
  let leading : Binary64 := { Binary64.ofInt significand.digits with negative := negative }
  if significand.exponent < 0 then scaleDown leading significand.exponent.natAbs
  else if leading.isZero then some leading
  else if 308 < significand.exponent then none
  else leading.multiply? (powerOfTen significand.exponent.toNat)

/-- The parts of a number as it is written. -/
structure NumberText where
  negative : Bool
  /-- The digits before the point. -/
  whole : List Char
  /-- The digits after the point, if there is a point. -/
  fraction : Option (List Char)
  /-- The sign and the digits of the exponent, if there is one. -/
  exponent : Option (Bool × List Char)

/-- The digits at the front. -/
def spanDigits (characters : List Char) : List Char × List Char :=
  (characters.takeWhile Char.isDigit, characters.dropWhile Char.isDigit)

/-- Read an exponent with its mark; at least one digit is needed. -/
def NumberText.exponent? : List Char → Option (Option (Bool × List Char))
  | [] => some none
  | mark :: rest =>
    if mark = 'e' ∨ mark = 'E' then
      let (negative, rest) := match rest with
        | '-' :: rest => (true, rest)
        | '+' :: rest => (false, rest)
        | rest => (false, rest)
      if !rest.isEmpty && rest.all Char.isDigit then some (some (negative, rest)) else none
    else none

/-- Cut a word into the parts of a number: no superfluous zero in front, a digit on both sides of
the point. -/
def NumberText.ofWord? (word : List Char) : Option NumberText := do
  let (negative, word) := match word with
    | '-' :: rest => (true, rest)
    | rest => (false, rest)
  let (whole, rest) := spanDigits word
  guard (whole ≠ [] ∧ (whole.length = 1 ∨ whole.head? ≠ some '0'))
  match rest with
  | '.' :: rest =>
    let (fraction, rest) := spanDigits rest
    guard (fraction ≠ [])
    let exponent ← NumberText.exponent? rest
    some ⟨negative, whole, some fraction, exponent⟩
  | rest =>
    let exponent ← NumberText.exponent? rest
    some ⟨negative, whole, none, exponent⟩

/-- The whole number that digits denote. -/
def digitsValue (digits : List Char) : Nat :=
  digits.foldl (fun value digit => value * 10 + digitValue digit) 0

/-- The number a text denotes, or nothing when it is too large. -/
def NumberText.number? (text : NumberText) : Option Number :=
  let whole := text.whole.foldl Significand.pushWhole ⟨0, 0, false⟩
  match text.fraction, text.exponent with
  | none, none =>
    if text.negative then
      if whole.full || whole.digits = 0 || Nat.pow 2 63 < whole.digits then
        (whole.toBinary64? true).map .float
      else some (.integer (-whole.digits))
    else if whole.full then (whole.toBinary64? false).map .float
    else some (.integer whole.digits)
  | fraction, exponent =>
    let significand :=
      (fraction.getD []).foldl Significand.pushFraction { whole with full := false }
    let shift : Int := match exponent with
      | none => 0
      | some (true, digits) => -digitsValue digits
      | some (false, digits) => digitsValue digits
    ({ significand with exponent := significand.exponent + shift }.toBinary64? text.negative).map
      .float

/-! ## Tokens -/

/-- The smallest parts of a text. -/
inductive Token where
  | openList
  | closeList
  | openRecord
  | closeRecord
  | colon
  | comma
  | text (value : String)
  /-- A constant or a number. -/
  | scalar (value : Value)
deriving Repr

/-- Where the scanner stands. -/
inductive Scan where
  | between
  /-- Inside a quoted text, with its characters so far in reverse. -/
  | inText (reversed : List Char)
  /-- Inside a word or number, with its characters so far in reverse. -/
  | inWord (reversed : List Char)

/-- The blank characters between tokens. -/
def isSeparator (character : Char) : Bool :=
  character = ' ' || character = '\t' || character = '\n' || character = '\r'

/-- The characters of words and numbers. -/
def isWordCharacter (character : Char) : Bool :=
  character.isAlphanum || character = '-' || character = '+' || character = '.'

/-- The token a word stands for. -/
def wordToken? (word : List Char) : Option Token :=
  match String.ofList word with
  | "null" => some (.scalar .null)
  | "true" => some (.scalar (.bool true))
  | "false" => some (.scalar (.bool false))
  | _ => do
    let text ← NumberText.ofWord? word
    let number ← text.number?
    some (.scalar (.number number))

/-- Read a character that stands between tokens: the token it is, and where the scanner goes. -/
def startToken? (character : Char) : Option (Option Token × Scan) :=
  match character with
  | '[' => some (some .openList, .between)
  | ']' => some (some .closeList, .between)
  | '{' => some (some .openRecord, .between)
  | '}' => some (some .closeRecord, .between)
  | ':' => some (some .colon, .between)
  | ',' => some (some .comma, .between)
  | '"' => some (none, .inText [])
  | _ =>
    if isSeparator character then some (none, .between)
    else if isWordCharacter character then some (none, .inWord [character])
    else none

/-- The value of a hexadecimal digit. -/
def hexValue? (character : Char) : Option Nat :=
  if character.isDigit then some (digitValue character)
  else if 'a' ≤ character ∧ character ≤ 'f' then some (character.toNat - 'a'.toNat + 10)
  else if 'A' ≤ character ∧ character ≤ 'F' then some (character.toNat - 'A'.toNat + 10)
  else none

/-- The number that hexadecimal digits denote. -/
def hexNumber? (digits : List Char) : Option Nat :=
  digits.foldlM (fun value digit => (hexValue? digit).map (value * 16 + ·)) 0

/-- The character a short escape stands for. -/
def shortEscape? (letter : Char) : Option Char :=
  match letter with
  | '"' => some '"'
  | '\\' => some '\\'
  | '/' => some '/'
  | 'b' => some '\x08'
  | 'f' => some '\x0c'
  | 'n' => some '\n'
  | 'r' => some '\r'
  | 't' => some '\t'
  | _ => none

/-- A code unit is the first half of a pair. -/
def isHighHalf (unit : Nat) : Bool := 0xD800 ≤ unit && unit ≤ 0xDBFF

/-- A code unit is the second half of a pair. -/
def isLowHalf (unit : Nat) : Bool := 0xDC00 ≤ unit && unit ≤ 0xDFFF

/-- The character of a pair of code units. -/
def pairCharacter (high low : Nat) : Char :=
  Char.ofNat (0x10000 + (high - 0xD800) * 0x400 + (low - 0xDC00))

/-- Add the token, if there is one, to the tokens so far. -/
def pushToken (tokens : List Token) : Option Token → List Token
  | none => tokens
  | some token => token :: tokens

/-- Cut a text into tokens, collected in reverse. -/
def scan : Scan → List Token → List Char → Option (List Token)
  | .between, tokens, [] => some tokens
  | .between, tokens, character :: rest =>
    match startToken? character with
    | none => none
    | some (token, state) => scan state (pushToken tokens token) rest
  | .inWord word, tokens, [] => (wordToken? word.reverse).map (· :: tokens)
  | .inWord word, tokens, character :: rest =>
    if isWordCharacter character then scan (.inWord (character :: word)) tokens rest
    else match wordToken? word.reverse, startToken? character with
      | some ended, some (token, state) => scan state (pushToken (ended :: tokens) token) rest
      | _, _ => none
  | .inText _, _, [] => none
  | .inText reversed, tokens, '"' :: rest =>
    scan .between (.text (String.ofList reversed.reverse) :: tokens) rest
  | .inText reversed, tokens, '\\' :: 'u' :: a :: b :: c :: d :: rest =>
    match hexNumber? [a, b, c, d] with
    | none => none
    | some unit =>
      if isLowHalf unit then none
      else if isHighHalf unit then
        match rest with
        | '\\' :: 'u' :: e :: f :: g :: h :: rest =>
          match hexNumber? [e, f, g, h] with
          | none => none
          | some low =>
            if isLowHalf low then scan (.inText (pairCharacter unit low :: reversed)) tokens rest
            else none
        | _ => none
      else scan (.inText (Char.ofNat unit :: reversed)) tokens rest
  | .inText reversed, tokens, '\\' :: letter :: rest =>
    match shortEscape? letter with
    | some character => scan (.inText (character :: reversed)) tokens rest
    | none => none
  | .inText reversed, tokens, character :: rest =>
    if character.toNat < 0x20 then none else scan (.inText (character :: reversed)) tokens rest

/-! ## Assembly -/

/-- A list or record that is still open, with its parts so far in reverse. -/
inductive Frame where
  /-- A list with its items. -/
  | list (items : List Value)
  /-- A record with its fields and the key of the next one. -/
  | record (fields : List (String × Value)) (key : String)

/-- What the next token has to be. -/
inductive Expected where
  | value
  /-- A value, or the end of the list just opened. -/
  | firstItem
  /-- A key, or the end of the record just opened. -/
  | firstKey
  | key (fields : List (String × Value))
  | colon (fields : List (String × Value)) (key : String)
  /-- A comma or the end of what is open, after a value. -/
  | after (value : Value)

/-- The state of the assembly: what is expected inside which open lists and records. -/
structure Assembly where
  expected : Expected
  /-- The open lists and records, innermost first. -/
  frames : List Frame

/-- The number of lists and records that may not be open at once. -/
def nestingLimit : Nat := 128

/-- No further list or record may be opened. -/
def Assembly.isDeepest (frames : List Frame) : Bool := nestingLimit ≤ frames.length + 1

/-- Read one token. A record just opened stands on the stack with an empty key; while a later key
is awaited, the fields so far are kept in the expectation. -/
def Assembly.step? (state : Assembly) (token : Token) : Option Assembly :=
  match state.expected, token, state.frames with
  | .value, .openList, frames | .firstItem, .openList, frames =>
    if Assembly.isDeepest frames then none else some ⟨.firstItem, .list [] :: frames⟩
  | .value, .openRecord, frames | .firstItem, .openRecord, frames =>
    if Assembly.isDeepest frames then none else some ⟨.firstKey, .record [] "" :: frames⟩
  | .value, .text value, frames | .firstItem, .text value, frames =>
    some ⟨.after (.text value), frames⟩
  | .value, .scalar value, frames | .firstItem, .scalar value, frames => some ⟨.after value, frames⟩
  | .firstItem, .closeList, .list _ :: frames => some ⟨.after (.list []), frames⟩
  | .firstKey, .closeRecord, .record _ _ :: frames => some ⟨.after (.record []), frames⟩
  | .firstKey, .text key, .record fields _ :: frames => some ⟨.colon fields key, frames⟩
  | .key fields, .text key, frames => some ⟨.colon fields key, frames⟩
  | .colon fields key, .colon, frames => some ⟨.value, .record fields key :: frames⟩
  | .after value, .comma, .list items :: frames => some ⟨.value, .list (value :: items) :: frames⟩
  | .after value, .closeList, .list items :: frames =>
    some ⟨.after (.list (value :: items).reverse), frames⟩
  | .after value, .comma, .record fields key :: frames =>
    some ⟨.key ((key, value) :: fields), frames⟩
  | .after value, .closeRecord, .record fields key :: frames =>
    some ⟨.after (.record ((key, value) :: fields).reverse), frames⟩
  | _, _, _ => none

/-- The value that tokens make up. -/
def assemble? (tokens : List Token) : Option Value := do
  let state ← tokens.foldlM Assembly.step? ⟨.value, []⟩
  match state.expected, state.frames with
  | .after value, [] => some value
  | _, _ => none

/-- The value a text denotes, with the fields of records as they are written: in their order, and
with repeated keys. -/
def ofTextAsWritten? (text : String) : Option Value := do
  let tokens ← scan .between [] text.toList
  assemble? tokens.reverse

/-- The value a text denotes; of fields with one key the last counts. -/
def ofText? (text : String) : Option Value := (ofTextAsWritten? text).map canonical

end Workflow.Value
