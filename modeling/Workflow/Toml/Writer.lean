import Workflow.Toml.Document

/-!
# Writing documents

The lines of a table come first, one for each item that is written within a line; after them
follow the tables inside it, each with a header, in the order of their keys in the document. A
list that holds only tables, at least one, is written as tables under repeated headers. Tables are
separated by an empty line. The header of a table that has nothing but tables inside it is left
out, since theirs imply it.

A text takes the simplest quotes that can hold it: double quotes if nothing needs an escape, else
single quotes, else three of either sort, else double quotes with escapes.
-/
namespace Workflow.Toml

/-! ## Texts and keys -/

/-- The control characters, to which the tab and the line feed do not count. -/
def isControl (character : Char) : Bool :=
  (character.toNat < 0x20 && character ≠ '\t' && character ≠ '\n') || character.toNat = 0x7F

/-- The digits of a number below 256 in upper-case hexadecimal. -/
def hexPair (value : Nat) : List Char :=
  [(value / 16).digitChar.toUpper, (value % 16).digitChar.toUpper]

/-- A character between double quotes, the quote itself left alone. -/
def escaped (character : Char) : List Char :=
  match character with
  | '\x08' => ['\\', 'b']
  | '\t' => ['\\', 't']
  | '\n' => ['\\', 'n']
  | '\x0c' => ['\\', 'f']
  | '\r' => ['\\', 'r']
  | '\\' => ['\\', '\\']
  | _ =>
    if isControl character then '\\' :: 'u' :: '0' :: '0' :: hexPair character.toNat
    else [character]

/-- The characters between double quotes on one line. -/
def escapedLine (characters : List Char) : List Char :=
  characters.flatMap fun character => if character = '"' then ['\\', '"'] else escaped character

/-- The characters between three double quotes, after `quotes` of a row of quotes: every third
quote of a row is escaped, and line feeds stand for themselves. -/
def escapedLines (quotes : Nat) : List Char → List Char
  | [] => []
  | '"' :: rest =>
    if quotes < 2 then '"' :: escapedLines (quotes + 1) rest
    else '\\' :: '"' :: escapedLines 0 rest
  | '\n' :: rest => '\n' :: escapedLines 0 rest
  | character :: rest => escaped character ++ escapedLines 0 rest

/-- A row of three of a character occurs. -/
def hasTriple (character : Char) : List Char → Bool
  | first :: second :: third :: rest =>
    (first = character && second = character && third = character) ||
      hasTriple character (second :: third :: rest)
  | _ => false

/-- Characters between a mark and the same mark. -/
def enclosed (mark : String) (characters : List Char) : String :=
  mark ++ String.ofList characters ++ mark

/-- Characters between a mark of several lines and the same mark: if there is a line feed among
them they begin on a line of their own. -/
def enclosedLines (mark : String) (characters content : List Char) : String :=
  enclosed mark (if '\n' ∈ characters then '\n' :: content else content)

/-- The characters that need no thought about quotes. -/
def isPlain (character : Char) : Bool :=
  character.isAlphanum || character ∈ ['_', '-', '.', '/', ':', ' ']

/-- A text as it is written. -/
def writtenText (value : String) : String :=
  let characters := value.toList
  let hasControl := characters.any isControl
  let lacks (excluded : List Char) : Bool := !hasControl && characters.all (· ∉ excluded)
  if characters.all isPlain then enclosed "\"" characters
  else if lacks ['\\', '"', '\n'] then enclosed "\"" (escapedLine characters)
  else if lacks ['\'', '\n'] then enclosed "'" characters
  else if lacks ['\\'] && !hasTriple '"' characters then
    enclosedLines "\"\"\"" characters (escapedLines 0 characters)
  else if !hasControl && !hasTriple '\'' characters then
    enclosedLines "'''" characters characters
  else if '\n' ∈ characters then enclosedLines "\"\"\"" characters (escapedLines 0 characters)
  else enclosed "\"" (escapedLine characters)

/-- A key as it is written. -/
def writtenKey (key : String) : String :=
  let characters := key.toList
  let lacks (excluded : List Char) : Bool :=
    characters.all fun character => !isControl character && character ∉ '\n' :: excluded
  if !characters.isEmpty && characters.all isBareKeyCharacter then key
  else if lacks ['\\', '"'] then enclosed "\"" (escapedLine characters)
  else if lacks ['\''] then enclosed "'" characters
  else enclosed "\"" (escapedLine characters)

/-! ## Items within a line -/

/-- A floating-point number as it is written, never with an exponent. -/
def Real.written : Real → String
  | .finite value => value.plainText
  | .infinite false => "inf"
  | .infinite true => "-inf"
  | .notANumber => "nan"

mutual

/-- An item within a line. -/
def Item.inline : Item → String
  | .text value => writtenText value
  | .integer value => toString value
  | .real value => value.written
  | .bool true => "true"
  | .bool false => "false"
  | .moment text => text
  | .list items => "[" ++ ", ".intercalate (inlineItems items) ++ "]"
  | .table [] => "\x7b\x7d"
  | .table entries => "\x7b " ++ ", ".intercalate (inlineEntries entries) ++ " \x7d"

/-- Items within a line. -/
def inlineItems : List Item → List String
  | [] => []
  | item :: rest => item.inline :: inlineItems rest

/-- Entries within a line. -/
def inlineEntries : List (String × Item) → List String
  | [] => []
  | (key, item) :: rest => (writtenKey key ++ " = " ++ item.inline) :: inlineEntries rest

end

/-! ## Tables -/

/-- An item is a table. -/
def Item.isTable : Item → Bool
  | .table _ => true
  | _ => false

/-- An item inside a table is written within a line: all but tables, and lists of tables only. -/
def Item.isInline : Item → Bool
  | .table _ => false
  | .list items => items.isEmpty || !items.all isTable
  | _ => true

/-- The lines of a table. -/
def linesOf (entries : List (String × Item)) : String :=
  String.join ((entries.filter fun entry => entry.2.isInline).map fun entry =>
    writtenKey entry.1 ++ " = " ++ entry.2.inline ++ "\n")

/-- The keys that lead to a table. -/
def writtenPath (path : List String) : String := ".".intercalate (path.map writtenKey)

mutual

/-- The tables that an item under a path is written as, none for an item within a line. -/
def Item.blocks (path : List String) : Item → List String
  | .table entries =>
    let lines := linesOf entries
    let inner := entryBlocks path entries
    if lines.isEmpty && !inner.isEmpty then inner
    else ("[" ++ writtenPath path ++ "]\n" ++ lines) :: inner
  | .list items => if items.all Item.isTable then listBlocks path items else []
  | _ => []

/-- The tables inside a table. -/
def entryBlocks (path : List String) : List (String × Item) → List String
  | [] => []
  | (key, item) :: rest => item.blocks (path ++ [key]) ++ entryBlocks path rest

/-- The tables of a list of tables. -/
def listBlocks (path : List String) : List Item → List String
  | [] => []
  | .table entries :: rest =>
    ("[[" ++ writtenPath path ++ "]]\n" ++ linesOf entries) ::
      (entryBlocks path entries ++ listBlocks path rest)
  | _ :: rest => listBlocks path rest

end

/-- The text of a document. -/
def Document.text (document : Document) : String :=
  let lines := linesOf document
  let blocks := entryBlocks [] document
  "\n".intercalate (if lines.isEmpty then blocks else lines :: blocks)

end Workflow.Toml
