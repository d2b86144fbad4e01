import Workflow.Context
import Workflow.Text.Blank
import Workflow.Text.Parts

/-!
# References to variables

A text that starts with `$` refers to a variable, and through segments after dots to a part of
its value: a key of a record, or the position of a list item in decimal. A last segment `length`
that is no key gives the number of items, fields or characters. A reference that leads nowhere is
undefined, which is no error. Any other text stands for itself.
-/
namespace Workflow

/-- The character that starts a reference. -/
def sigil : Char := '$'

/-- The last segment that asks for a length. -/
def lengthSegment : String := "length"

/-- A variable and the way from its value to a part of it. -/
structure Reference where
  root : String
  /-- The segments after the name. -/
  path : List String
deriving DecidableEq, Repr

/-- A text of a definition: it stands for itself or refers to a variable. -/
inductive Expression where
  | literal (text : String)
  | reference (reference : Reference)
deriving DecidableEq, Repr

namespace Reference

/-- The reference written after the sigil. -/
def ofPath (path : List Char) : Reference :=
  let (root, segments) := Text.splitAt '.' path
  ⟨String.ofList root, segments.map String.ofList⟩

/-- The text of a reference. -/
def print (reference : Reference) : String :=
  String.ofList (sigil :: reference.root.toList ++
    reference.path.flatMap fun segment => '.' :: segment.toList)

/-- The greatest position a segment can name. -/
def greatestPosition : Nat := Nat.pow 2 64 - 1

/-- The position a segment names: decimal digits, with an optional plus sign. -/
def position? (segment : String) : Option Nat :=
  let digits := match segment.toList with
    | '+' :: rest => rest
    | characters => characters
  if digits ≠ [] ∧ digits.all Char.isDigit then
    let value := digits.foldl (fun value digit => value * 10 + (digit.toNat - '0'.toNat)) 0
    if value ≤ greatestPosition then some value else none
  else none

/-- The part of a value that a segment names. -/
def child? (value : Value) (segment : String) : Option Value :=
  match value with
  | .record fields => fields.lookup segment
  | .list items => (position? segment).bind fun position => items[position]?
  | _ => none

/-- The number of items, fields or characters. -/
def length? : Value → Option Value
  | .list items => some (.ofNat items.length)
  | .text text => some (.ofNat text.length)
  | .record fields => some (.ofNat fields.length)
  | _ => none

/-- Follow a path into a value. -/
def follow? : Value → List String → Option Value
  | value, [] => some value
  | value, segment :: rest =>
    match child? value segment with
    | some part => follow? part rest
    | none => if segment = lengthSegment ∧ rest = [] then length? value else none

/-- The value a reference leads to in a context. -/
def resolve? (reference : Reference) (context : Context) : Option Value :=
  if reference.root = "" then none
  else (context.get? reference.root).bind fun value => follow? value reference.path

end Reference

namespace Expression

/-- Read a text: a reference when it starts with the sigil after blanks, else its trimmed self. -/
def ofText (text : String) : Expression :=
  match Text.trim text.toList with
  | [] => .literal ""
  | first :: rest =>
    if first = sigil then .reference (.ofPath rest) else .literal (String.ofList (first :: rest))

/-- The value an expression stands for, or nothing for an undefined reference. -/
def resolve? (expression : Expression) (context : Context) : Option Value :=
  match expression with
  | .literal text => some (.text text)
  | .reference target => target.resolve? context

end Expression

/-- The value that a text stands for in a context. -/
def resolve? (text : String) (context : Context) : Option Value :=
  (Expression.ofText text).resolve? context

/-- A text of an input is replaced when the sigil is its first character that is not blank. -/
def startsWithSigil (text : String) : Bool := (Text.trimStart text.toList).head? == some sigil

mutual

/-- The value with every text that refers to a variable replaced by what it refers to, and by null
where that is undefined. Keys, and texts inside what was inserted, stay as they are. -/
def resolveInput (context : Context) : Value → Value
  | .text text =>
    if startsWithSigil text then (resolve? text context).getD .null else .text text
  | .list items => .list (resolveItems context items)
  | .record fields => .record (resolveFields context fields)
  | other => other

/-- Every item resolved. -/
def resolveItems (context : Context) : List Value → List Value
  | [] => []
  | item :: rest => resolveInput context item :: resolveItems context rest

/-- Every field with its value resolved. -/
def resolveFields (context : Context) : List (String × Value) → List (String × Value)
  | [] => []
  | (key, value) :: rest => (key, resolveInput context value) :: resolveFields context rest

end

end Workflow
