import Workflow.Value

/-!
# TOML documents

A document is a table: keys with items, each key once. An item is a scalar, a list or a table. A
date or time is kept as its normal text. Every item has a value: the numbers that are not finite
become null, and a date or time becomes a record with one field under a reserved key.
-/
namespace Workflow.Toml

/-- A floating-point number of a document. -/
inductive Real where
  | finite (value : Binary64)
  | infinite (negative : Bool)
  /-- The result of an undefined operation. -/
  | notANumber
deriving DecidableEq, Repr

/-- An item of a document. -/
inductive Item where
  | text (value : String)
  | integer (value : Int)
  | real (value : Real)
  | bool (value : Bool)
  /-- A date, a time or both. -/
  | moment (text : String)
  | list (items : List Item)
  | table (entries : List (String × Item))
deriving Repr, Inhabited

/-- A document is the entries of its outermost table. -/
abbrev Document := List (String × Item)

/-- Why a text cannot be read as a document, or a document as what it should describe. -/
inductive Fault where
  /-- A character or an escape that has no place where it stands. -/
  | character
  /-- A word that is no value. -/
  | word (word : String)
  /-- Parts of the text in an order that the grammar does not allow. -/
  | arrangement
  /-- A key or table is defined twice or extended where it is closed. -/
  | redefinition (key : String)
  /-- Too many lists and tables inside one another. -/
  | nesting
  /-- A key whose item has the wrong type. -/
  | mistyped (key : String)
  /-- A required key is missing. -/
  | missing (key : String)
  /-- A key that is not known where it stands. -/
  | unknownKey (key : String)
deriving DecidableEq, Repr

/-- The fault in words. -/
def Fault.message : Fault → String
  | .character => "unexpected character"
  | .word found => "invalid value " ++ found
  | .arrangement => "unexpected token"
  | .redefinition key => "duplicate key " ++ key
  | .nesting => "nesting is too deep"
  | .mistyped key => "invalid type for " ++ key
  | .missing key => "missing key " ++ key
  | .unknownKey key => "unknown key " ++ key

/-- The characters of keys without quotes. -/
def isBareKeyCharacter (character : Char) : Bool :=
  character.isAlphanum || character = '_' || character = '-'

/-- The key of the record that a date or time becomes. -/
def momentKey : String := "$__toml_private_datetime"

/-- A whole number that a value can hold. -/
def valueInteger? (value : Int) : Option Value :=
  if -(Nat.pow 2 63) ≤ value ∧ value < Nat.pow 2 64 then some (.ofInt value) else none

mutual

/-- The value of an item; a whole number beyond 64 bits has none. -/
def Item.value? : Item → Option Value
  | .text value => some (.text value)
  | .integer value => valueInteger? value
  | .real (.finite value) => some (.number (.float value))
  | .real _ => some .null
  | .bool value => some (.bool value)
  | .moment text => some (.record [(momentKey, .text text)])
  | .list items => (itemValues? items).map .list
  | .table entries => (entryValues? entries).map .ofFields

/-- The values of items. -/
def itemValues? : List Item → Option (List Value)
  | [] => some []
  | item :: rest =>
    match item.value?, itemValues? rest with
    | some value, some values => some (value :: values)
    | _, _ => none

/-- The values of entries under their keys. -/
def entryValues? : List (String × Item) → Option (List (String × Value))
  | [] => some []
  | (key, item) :: rest =>
    match item.value?, entryValues? rest with
    | some value, some values => some ((key, value) :: values)
    | _, _ => none

end

mutual

/-- The item that a value is written as; null has none, and so does what contains it. -/
def Item.ofValue? : Value → Option Item
  | .null => none
  | .bool value => some (.bool value)
  | .number (.integer value) => some (.integer value)
  | .number (.float value) => some (.real (.finite value))
  | .text value => some (.text value)
  | .list values => (itemsOf? values).map .list
  | .record fields => (entriesOf? fields).map .table

/-- The items of values. -/
def itemsOf? : List Value → Option (List Item)
  | [] => some []
  | value :: rest =>
    match Item.ofValue? value, itemsOf? rest with
    | some item, some items => some (item :: items)
    | _, _ => none

/-- The entries of fields. -/
def entriesOf? : List (String × Value) → Option (List (String × Item))
  | [] => some []
  | (key, value) :: rest =>
    match Item.ofValue? value, entriesOf? rest with
    | some item, some entries => some ((key, item) :: entries)
    | _, _ => none

end

end Workflow.Toml
