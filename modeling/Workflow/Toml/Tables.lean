import Workflow.Toml.Document

/-!
# Building the tables of a document

A table can come into being in three ways: a header defines it, a header of a table inside it
implies it, or a dotted key names it. Which way decides how it can still be extended: a header can
define an implied table once, and dotted keys can extend the tables that dotted keys named.
Lists and tables written as values are closed.
-/
namespace Workflow.Toml

/-- How a table came into being. -/
inductive Origin where
  /-- By a header of its own, or as the outermost table. -/
  | defined
  /-- By the header of a table inside it. -/
  | implied
  /-- By a dotted key. -/
  | dotted
deriving DecidableEq, Repr

/-- An entry of a document that is still being read. -/
inductive Node where
  /-- A value, which is closed. -/
  | item (value : Item)
  /-- A table that may still be extended. -/
  | table (origin : Origin) (entries : List (String × Node))
  /-- A list of tables made by headers, the last one first. -/
  | tables (reversed : List (List (String × Node)))
deriving Inhabited

/-- The entries of a table that is still being read. -/
abbrev Entries := List (String × Node)

/-- Put a node under a key, in place of the one that is there. -/
def Entries.put (key : String) (node : Node) : Entries → Entries
  | [] => [(key, node)]
  | (other, kept) :: rest =>
    if other = key then (key, node) :: rest else (other, kept) :: Entries.put key node rest

/-- The entries without a key. -/
def Entries.without (key : String) (entries : Entries) : Entries :=
  entries.filter fun entry => entry.1 ≠ key

/-- The table a path leads to is changed by `change`, and the tables on the way are made if they
are missing. The way goes through lists of tables by their last one. Dotted keys do not pass
through tables that have a header of their own. -/
def Entries.alter (byDots : Bool) (change : Origin → Entries → Except Fault Entries) :
    List String → Origin → Entries → Except Fault Entries
  | [], origin, entries => change origin entries
  | key :: path, _, entries =>
    match entries.lookup key with
    | none => do
      let origin := if byDots then Origin.dotted else Origin.implied
      let inner ← Entries.alter byDots change path origin []
      return entries.put key (.table origin inner)
    | some (.table origin inner) =>
      if byDots && origin == .defined then .error (.redefinition key)
      else do
        let inner ← Entries.alter byDots change path origin inner
        return entries.put key (.table origin inner)
    | some (.tables (last :: earlier)) => do
      let last ← Entries.alter byDots change path .defined last
      return entries.put key (.tables (last :: earlier))
    | some _ => .error (.redefinition key)

/-- Set a key that a path of dotted keys leads to. The table that holds it must have been named by
dotted keys if the path does, and by nothing of the kind if there is no path. -/
def Entries.assign (path : List String) (key : String) (value : Item) (entries : Entries) :
    Except Fault Entries :=
  Entries.alter true
    (fun origin inner =>
      if (origin == .dotted) != !path.isEmpty then .error (.redefinition key)
      else if (inner.lookup key).isSome then .error (.redefinition key)
      else .ok (inner ++ [(key, .item value)]))
    path .defined entries

/-- A header: the path to the table it opens, and whether it adds one to a list of tables. -/
structure Header where
  /-- The keys before the last. -/
  path : List String
  /-- The last key. -/
  key : String
  /-- The header adds a table to a list. -/
  repeated : Bool
deriving DecidableEq, Repr

/-- A document that is being read: what its finished tables hold, and the table being read. -/
structure Tables where
  /-- The entries of the outermost table, without the table being read. -/
  root : Entries
  /-- The header of the table being read; none for the outermost table. -/
  header : Option Header
  /-- The entries of the table being read. -/
  current : Entries

/-- An empty document. -/
def Tables.empty : Tables := ⟨[], none, []⟩

/-- Set a key in the table being read. -/
def Tables.assign (tables : Tables) (path : List String) (key : String) (value : Item) :
    Except Fault Tables := do
  return { tables with current := ← tables.current.assign path key value }

/-- The entries of the outermost table with the table being read in its place. -/
def Tables.finish (tables : Tables) : Except Fault Entries :=
  match tables.header with
  | none => .ok tables.current
  | some header =>
    Entries.alter false
      (fun _ inner =>
        match inner.lookup header.key, header.repeated with
        | none, true => .ok (inner ++ [(header.key, .tables [tables.current])])
        | some (.tables earlier), true =>
          .ok (inner.put header.key (.tables (tables.current :: earlier)))
        | none, false => .ok (inner ++ [(header.key, .table .defined tables.current)])
        | _, _ => .error (.redefinition header.key))
      header.path .defined tables.root

/-- The entries under a header that defines a table: those of the table that other headers have
implied, else none. -/
def Entries.implied (key : String) (entries : Entries) : Entries :=
  match entries.lookup key with
  | some (.table .implied inner) => inner
  | _ => []

/-- The entries of the table a path leads to. -/
def Entries.find? : List String → Entries → Option Entries
  | [], entries => some entries
  | key :: path, entries =>
    match entries.lookup key with
    | some (.table _ inner) => Entries.find? path inner
    | some (.tables (last :: _)) => Entries.find? path last
    | _ => none

/-- Open the table of a header. A table that is implied so far is taken out to be defined. -/
def Tables.openTable (tables : Tables) (header : Header) : Except Fault Tables := do
  let root ← tables.finish
  if header.repeated then return ⟨root, some header, []⟩
  else
    let current := ((root.find? header.path).map (Entries.implied header.key)).getD []
    let root ← root.alter false
      (fun _ inner =>
        match inner.lookup header.key with
        | none | some (.table .implied _) => .ok (inner.without header.key)
        | some _ => .error (.redefinition header.key))
      header.path .defined
    return ⟨root, some header, current⟩

mutual

/-- The item that a finished node is. -/
def Node.toItem : Node → Item
  | .item value => value
  | .table _ entries => .table (entryItems entries)
  | .tables reversed => .list (tableItems reversed).reverse

/-- The items of finished entries. -/
def entryItems : List (String × Node) → List (String × Item)
  | [] => []
  | (key, node) :: rest => (key, node.toItem) :: entryItems rest

/-- The items of a list of tables, in the order in which it is kept. -/
def tableItems : List (List (String × Node)) → List Item
  | [] => []
  | entries :: rest => .table (entryItems entries) :: tableItems rest

end

/-- The finished document. -/
def Tables.document (tables : Tables) : Except Fault Document :=
  tables.finish.map entryItems

end Workflow.Toml
