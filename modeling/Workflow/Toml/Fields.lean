import Workflow.Toml.Document

/-!
# Fields of an item

An item that describes something with named fields is a table, or a list that holds the fields in
their declared order. A field that is missing is absent; further items of a list are not looked at.
-/
namespace Workflow.Toml

/-- The entries of an item with named fields. A closed set of fields admits no other key. -/
def Item.fields (names : List String) (closed : Bool) : Item → Except Fault (List (String × Item))
  | .table entries =>
    match entries.find? fun entry => closed && entry.1 ∉ names with
    | some entry => .error (.unknownKey entry.1)
    | none => .ok entries
  | .list items => .ok (names.zip items)
  | _ => .error (.mistyped "table")

/-- Read the item under a key, if there is one. -/
def optional (read : Item → Option A) (key : String) (entries : List (String × Item)) :
    Except Fault (Option A) :=
  match entries.lookup key with
  | none => .ok none
  | some item =>
    match read item with
    | some value => .ok (some value)
    | none => .error (.mistyped key)

/-- Read the item under a key, which must be there. -/
def required (read : Item → Option A) (key : String) (entries : List (String × Item)) :
    Except Fault A := do
  match ← optional read key entries with
  | some value => return value
  | none => throw (.missing key)

/-- The text that an item is. -/
def Item.text? : Item → Option String
  | .text value => some value
  | _ => none

/-- The natural number of 64 bits that an item is. -/
def Item.natural? : Item → Option Nat
  | .integer value => if 0 ≤ value ∧ value < Nat.pow 2 64 then some value.toNat else none
  | _ => none

/-- An item that holds nothing. -/
def Item.isEmpty : Item → Bool
  | .table entries => entries.isEmpty
  | .list items => items.isEmpty
  | _ => false

/-- The name that an item chooses: a text, or the only key of a table, which holds nothing. -/
def Item.choice? : Item → Option String
  | .text name => some name
  | .table [(name, content)] => if content.isEmpty then some name else none
  | _ => none

end Workflow.Toml
