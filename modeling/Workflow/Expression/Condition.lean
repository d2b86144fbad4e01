import Workflow.Expression.Reference
import Workflow.Binary64.Reader

/-!
# Conditions

A condition is one operand, judged by its truth, or two operands with a comparison between them.
Quoted spans hide operators. A condition that cannot be read counts as fulfilled, so that the
step runs, and the cause is reported.

Two operands that both denote numbers, as numbers or as texts that read as one, are compared as
numbers. Otherwise only equality can hold between them, and an undefined operand equals null.
-/
namespace Workflow

/-- The comparisons. -/
inductive Comparison where
  | greater
  | less
  | atLeast
  | atMost
  | equal
  | unequal
deriving DecidableEq, Repr

/-- How a comparison is written. -/
def Comparison.token : Comparison → List Char
  | .greater => ['>']
  | .less => ['<']
  | .atLeast => ['>', '=']
  | .atMost => ['<', '=']
  | .equal => ['=', '=']
  | .unequal => ['!', '=']

/-- Why a condition cannot be read. -/
inductive ConditionError where
  /-- A second comparison stands outside quotes. -/
  | severalOperators
  /-- A character stands alone that only occurs in comparisons. -/
  | strayOperator (character : Char)
  /-- A quoted span is not closed. -/
  | openQuote
  /-- There is nothing on one side of the comparison. -/
  | missingOperand
deriving DecidableEq, Repr

/-- The cause in words. -/
def ConditionError.message : ConditionError → String
  | .severalOperators => "演算子が複数あります"
  | .strayOperator character => "不正な演算子 '" ++ String.singleton character ++ "'"
  | .openQuote => "引用符が閉じられていません"
  | .missingOperand => "オペランドがありません"

namespace Condition

/-- The characters that open a quoted span and close it again. -/
def isQuote (character : Char) : Bool := character = '\'' || character = '"'

/-- A condition cut at its comparison. -/
structure Split where
  left : List Char
  comparison : Comparison
  right : List Char
deriving DecidableEq, Repr

/-- What has been read of a condition: the part before the comparison, if there was one, and the
characters since then in reverse. -/
structure Scan where
  /-- The left side and the comparison. -/
  found : Option (List Char × Comparison)
  /-- The characters after the comparison, or from the beginning, in reverse. -/
  reversed : List Char

/-- Nothing has been read yet. -/
def Scan.start : Scan := ⟨none, []⟩

/-- Read a character that is no operator. -/
def Scan.push (scan : Scan) (character : Char) : Scan :=
  { scan with reversed := character :: scan.reversed }

/-- Read a comparison; there may be only one. -/
def Scan.compare (scan : Scan) (comparison : Comparison) : Except ConditionError Scan :=
  match scan.found with
  | none => .ok ⟨some (scan.reversed.reverse, comparison), []⟩
  | some _ => .error .severalOperators

/-- The condition cut at its comparison, if it has one. -/
def Scan.finish (scan : Scan) : Option Split :=
  scan.found.map fun found => ⟨found.1, found.2, scan.reversed.reverse⟩

mutual

/-- Scan outside of quotes. An operator of two characters is read before one of its first. -/
def scanOutside (scan : Scan) : List Char → Except ConditionError (Option Split)
  | [] => .ok scan.finish
  | '>' :: '=' :: rest => do scanOutside (← scan.compare .atLeast) rest
  | '<' :: '=' :: rest => do scanOutside (← scan.compare .atMost) rest
  | '=' :: '=' :: rest => do scanOutside (← scan.compare .equal) rest
  | '!' :: '=' :: rest => do scanOutside (← scan.compare .unequal) rest
  | '>' :: rest => do scanOutside (← scan.compare .greater) rest
  | '<' :: rest => do scanOutside (← scan.compare .less) rest
  | character :: rest =>
    if character = '=' ∨ character = '!' then .error (.strayOperator character)
    else if isQuote character then scanQuoted character (scan.push character) rest
    else scanOutside (scan.push character) rest

/-- Scan a quoted span up to the quote that opened it. -/
def scanQuoted (quote : Char) (scan : Scan) : List Char → Except ConditionError (Option Split)
  | [] => .error .openQuote
  | character :: rest =>
    if character = quote then scanOutside (scan.push character) rest
    else scanQuoted quote (scan.push character) rest

end

/-- Cut a condition at the comparison that stands outside quotes. -/
def split (condition : List Char) : Except ConditionError (Option Split) :=
  scanOutside .start condition

/-! ## Operands -/

/-- What stands between two quotes of one sort at both ends. -/
def unquote? : List Char → Option (List Char)
  | [] => none
  | first :: rest =>
    if isQuote first ∧ rest.getLast? = some first then some rest.dropLast else none

/-- The whole number of 64 bits that a text denotes. -/
def integer? (text : List Char) : Option Int :=
  let (negative, digits) := Binary64.splitSign text
  if digits ≠ [] ∧ digits.all Char.isDigit then
    let magnitude := Binary64.digitsValue digits
    let value : Int := if negative then -magnitude else magnitude
    if -(Nat.pow 2 63) ≤ value ∧ value < Nat.pow 2 63 then some value else none
  else none

/-- The value that a word stands for: a constant, a number, or itself. -/
def wordValue (word : List Char) : Value :=
  if word = "true".toList then .bool true
  else if word = "false".toList then .bool false
  else if word = "null".toList then .null
  else match integer? word, Binary64.ofText? word with
    | some value, _ => .ofInt value
    | none, some value => .number (.float value)
    | none, none => .text (String.ofList word)

/-- The value of an operand, or nothing for an undefined reference. -/
def operand (token : List Char) (context : Context) : Except ConditionError (Option Value) :=
  match Text.trim token with
  | [] => .error .missingOperand
  | first :: rest =>
    if first = sigil then .ok ((Reference.ofPath rest).resolve? context)
    else match unquote? (first :: rest) with
      | some inner => .ok (some (.text (String.ofList inner)))
      | none => .ok (some (wordValue (first :: rest)))

/-! ## Judgement -/

/-- The number that an operand denotes. -/
def numeric? : Option Value → Option Binary64
  | some (.number value) => some value.toBinary64
  | some (.text text) => Binary64.ofText? (Text.trim text.toList)
  | _ => none

/-- Compare two numbers. -/
def compareNumbers (comparison : Comparison) (left right : Binary64) : Bool :=
  match comparison with
  | .greater => right.less left
  | .less => left.less right
  | .atLeast => !left.less right
  | .atMost => !right.less left
  | .equal => left.equal right
  | .unequal => !left.equal right

/-- Compare two values of which one denotes no number. -/
def compareValues (comparison : Comparison) (left right : Value) : Bool :=
  match comparison with
  | .equal => left.equal right
  | .unequal => !left.equal right
  | _ => false

/-- Compare two operands. -/
def compare (comparison : Comparison) (left right : Option Value) : Bool :=
  match numeric? left, numeric? right with
  | some left, some right => compareNumbers comparison left right
  | _, _ => compareValues comparison (left.getD .null) (right.getD .null)

/-- The truth of a single operand. -/
def isTruthy : Option Value → Bool
  | none | some .null => false
  | some (.bool value) => value
  | some (.number value) => !value.toBinary64.isZero
  | some (.text text) => text != ""
  | some (.list _) | some (.record _) => true

/-- Judge a condition that is not blank. -/
def judge (condition : List Char) (context : Context) : Except ConditionError Bool := do
  match ← split condition with
  | none => return isTruthy (← operand condition context)
  | some parts =>
    let left ← operand parts.left context
    let right ← operand parts.right context
    return compare parts.comparison left right

/-- The outcome of a condition. -/
structure Verdict where
  holds : Bool
  /-- The condition and why it cannot be read, if it cannot. -/
  unreadable : Option (String × ConditionError)
deriving DecidableEq, Repr

/-- Evaluate a condition: an absent or blank one holds, and so does one that cannot be read. -/
def evaluate (condition : Option String) (context : Context) : Verdict :=
  match condition.map fun text => Text.trim text.toList with
  | none | some [] => ⟨true, none⟩
  | some condition =>
    match judge condition context with
    | .ok holds => ⟨holds, none⟩
    | .error cause => ⟨true, some (String.ofList condition, cause)⟩

end Condition

end Workflow
