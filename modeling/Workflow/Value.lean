import Workflow.Binary64
import Workflow.Table

/-!
# Dynamic values

The data of a run: trigger payloads, step inputs and outputs, fallbacks. Whole numbers and
floating-point numbers are different values even when they are numerically equal. The fields of
a record have unique keys in ascending order of code points; `Value.ofFields` builds such records
and `Value.canonical` restores the form in a value read from a text.
-/
namespace Workflow

/-- A whole number, kept exactly, or a floating-point number. -/
inductive Number where
  | integer (value : Int)
  | float (value : Binary64)
deriving DecidableEq, Repr

namespace Number

/-- The nearest floating-point number. -/
def toBinary64 : Number → Binary64
  | .integer value => .ofInt value
  | .float value => value

/-- Numbers of the same sort with the same value. -/
def equal : Number → Number → Bool
  | .integer left, .integer right => left == right
  | .float left, .float right => left.equal right
  | _, _ => false

end Number

/-- A dynamic value. -/
inductive Value where
  | null
  | bool (value : Bool)
  | number (value : Number)
  | text (value : String)
  | list (items : List Value)
  | record (fields : List (String × Value))
deriving Repr, Inhabited

namespace Value

/-- A whole number as a value. -/
def ofInt (value : Int) : Value := .number (.integer value)

/-- A natural number as a value. -/
def ofNat (value : Nat) : Value := .ofInt value

/-! ## Records -/

/-- The record of a list of fields, where a later field replaces an earlier one of its key. -/
def ofFields (fields : List (String × Value)) : Value :=
  .record (fields.foldl (fun sorted field => Table.set field.1 field.2 sorted) [])

/-- The field of a record under a key. -/
def field? (key : String) : Value → Option Value
  | .record fields => fields.lookup key
  | _ => none

mutual

/-- The value with every record in it put into sorted form. -/
def canonical : Value → Value
  | .list items => .list (canonicalItems items)
  | .record fields => ofFields (canonicalFields fields)
  | other => other

/-- Every item in canonical form. -/
def canonicalItems : List Value → List Value
  | [] => []
  | item :: rest => item.canonical :: canonicalItems rest

/-- Every field with its value in canonical form. -/
def canonicalFields : List (String × Value) → List (String × Value)
  | [] => []
  | (key, value) :: rest => (key, value.canonical) :: canonicalFields rest

end

/-! ## Equality -/

mutual

/-- Equality of values: numbers of one sort by value, texts, lists and records part by part. -/
def equal : Value → Value → Bool
  | .null, .null => true
  | .bool left, .bool right => left == right
  | .number left, .number right => left.equal right
  | .text left, .text right => left == right
  | .list left, .list right => equalItems left right
  | .record left, .record right => equalFields left right
  | _, _ => false

/-- Lists of one length with equal items. -/
def equalItems : List Value → List Value → Bool
  | [], [] => true
  | left :: lefts, right :: rights => left.equal right && equalItems lefts rights
  | _, _ => false

/-- Fields of one length with equal keys and values in order. -/
def equalFields : List (String × Value) → List (String × Value) → Bool
  | [], [] => true
  | (key, left) :: lefts, (other, right) :: rights =>
    key == other && left.equal right && equalFields lefts rights
  | _, _ => false

end

mutual

/-- Whether two values are the same, deciding identity rather than `equal`: the two zeros differ. -/
def decideEq : (left right : Value) → Decidable (left = right)
  | .null, .null => isTrue rfl
  | .bool left, .bool right => decidable_of_iff (left = right) (by simp)
  | .number left, .number right => decidable_of_iff (left = right) (by simp)
  | .text left, .text right => decidable_of_iff (left = right) (by simp)
  | .list left, .list right =>
    match decideItemsEq left right with
    | isTrue same => isTrue (by rw [same])
    | isFalse differ => isFalse (by simpa using differ)
  | .record left, .record right =>
    match decideFieldsEq left right with
    | isTrue same => isTrue (by rw [same])
    | isFalse differ => isFalse (by simpa using differ)
  | .null, .bool _ | .null, .number _ | .null, .text _ | .null, .list _ | .null, .record _
  | .bool _, .null | .bool _, .number _ | .bool _, .text _ | .bool _, .list _ | .bool _, .record _
  | .number _, .null | .number _, .bool _ | .number _, .text _ | .number _, .list _
  | .number _, .record _
  | .text _, .null | .text _, .bool _ | .text _, .number _ | .text _, .list _ | .text _, .record _
  | .list _, .null | .list _, .bool _ | .list _, .number _ | .list _, .text _ | .list _, .record _
  | .record _, .null | .record _, .bool _ | .record _, .number _ | .record _, .text _
  | .record _, .list _ => isFalse (by simp)

/-- Whether two lists hold the same items. -/
def decideItemsEq : (left right : List Value) → Decidable (left = right)
  | [], [] => isTrue rfl
  | [], _ :: _ | _ :: _, [] => isFalse (by simp)
  | left :: lefts, right :: rights =>
    match decideEq left right, decideItemsEq lefts rights with
    | isTrue same, isTrue rest => isTrue (by rw [same, rest])
    | isFalse differ, _ => isFalse (by simp [differ])
    | _, isFalse differ => isFalse (by simp [differ])

/-- Whether two field lists are the same. -/
def decideFieldsEq : (left right : List (String × Value)) → Decidable (left = right)
  | [], [] => isTrue rfl
  | [], _ :: _ | _ :: _, [] => isFalse (by simp)
  | (key, left) :: lefts, (other, right) :: rights =>
    match decEq key other, decideEq left right, decideFieldsEq lefts rights with
    | isTrue sameKey, isTrue same, isTrue rest => isTrue (by rw [sameKey, same, rest])
    | isFalse differ, _, _ => isFalse (by simp [differ])
    | _, isFalse differ, _ => isFalse (by simp [differ])
    | _, _, isFalse differ => isFalse (by simp [differ])

end

instance : DecidableEq Value := decideEq

end Value

end Workflow
