import Workflow.Toml.Scalar
import Workflow.Toml.Tables
import Workflow.Toml.Token
import Workflow.Text.Parts

/-!
# Reading documents

The tokens of a document are read one after another. A line holds an assignment, a header of a
table or nothing. The lists and tables that are open around the current token stand on a stack;
inside of them line ends count as blanks, except between the parts of a key, and the last item may
have a comma after it. Inside the brackets of a header no blank may stand between the two brackets
of a list of tables.
-/
namespace Workflow.Toml

/-- The greatest number of lists and tables written inside one another. -/
def nestingLimit : Nat := 80

/-! ## Keys -/

/-- The parts of a dotted key so far. -/
structure KeyScan where
  /-- The parts, the last one first. -/
  reversed : List String
  /-- A part must come next. -/
  expecting : Bool
deriving DecidableEq, Repr

namespace KeyScan

/-- Nothing of the key has been read yet. -/
def start : KeyScan := ⟨[], true⟩

/-- Read a part of the key. -/
def addPart (scan : KeyScan) (part : String) : Except Fault KeyScan :=
  if scan.expecting then .ok ⟨part :: scan.reversed, false⟩ else .error .arrangement

/-- Read a dot. -/
def addDot (scan : KeyScan) : Except Fault KeyScan :=
  if scan.expecting then .error .arrangement else .ok { scan with expecting := true }

/-- Read a part without quotes, if there is one between two dots. -/
def addBare (scan : KeyScan) (part : List Char) : Except Fault KeyScan :=
  if part.isEmpty then .ok scan
  else if part.all isBareKeyCharacter then scan.addPart (String.ofList part)
  else .error .arrangement

/-- Read a word, which may hold several parts and dots. -/
def addWord (scan : KeyScan) (characters : List Char) : Except Fault KeyScan := do
  let (first, others) := Text.splitAt '.' characters
  others.foldlM (fun scan part => do (← scan.addDot).addBare part) (← scan.addBare first)

/-- Read a token inside a key. -/
def step (scan : KeyScan) : Token → Except Fault KeyScan
  | .blank _ => .ok scan
  | .word characters => scan.addWord characters
  | .quoted content false => scan.addPart content
  | _ => .error .arrangement

/-- The keys before the last and the last key. -/
def finish (scan : KeyScan) : Except Fault (List String × String) :=
  match scan.expecting, scan.reversed with
  | false, key :: before =>
    if before.length < nestingLimit then .ok (before.reverse, key) else .error .nesting
  | _, _ => .error .arrangement

end KeyScan

/-! ## Lines -/

/-- What is open around the current token. -/
inductive Frame where
  /-- A list with its items so far, the last one first. -/
  | list (reversed : List Item)
  /-- A table written between braces. -/
  | table (entries : Entries)
  /-- An assignment whose item is being read. -/
  | assignment (path : List String) (key : String)

/-- What may come next. -/
inductive Place where
  | lineStart
  /-- The second bracket of a header or its key. -/
  | headerStart
  /-- The key of a header. -/
  | headerKey (repeated : Bool) (scan : KeyScan)
  /-- The second of two closing brackets. -/
  | headerEnd (header : Header)
  /-- The rest of a line after its assignment or header. -/
  | lineEnd
  | key (scan : KeyScan)
  /-- The equals sign after a key at whose end a line has ended. -/
  | equals (path : List String) (key : String)
  /-- An item, or the end of a list. -/
  | item
  /-- A comma or the end of a list. -/
  | afterItem
  /-- An assignment inside braces, or their end. -/
  | entry
  /-- A comma or the end of the braces. -/
  | afterEntry

/-- What has been read of a document. -/
structure Reading where
  tables : Tables
  /-- What is open, the innermost first. -/
  frames : List Frame
  /-- What may come next. -/
  place : Place

namespace Reading

/-- Nothing has been read yet. -/
def start : Reading := ⟨.empty, [], .lineStart⟩

/-- The number of lists and tables that are open. -/
def depth (reading : Reading) : Nat :=
  reading.frames.countP fun
    | .assignment .. => false
    | _ => true

/-- Open a list or a table inside of what is open. -/
def openFrame (reading : Reading) (frame : Frame) (place : Place) : Except Fault Reading :=
  if reading.depth < nestingLimit then
    .ok { reading with frames := frame :: reading.frames, place }
  else .error .nesting

/-- A finished item goes to what is open around it. -/
def deliver (reading : Reading) (value : Item) : Except Fault Reading :=
  match reading.frames with
  | .list reversed :: frames =>
    .ok { reading with frames := .list (value :: reversed) :: frames, place := .afterItem }
  | .assignment path key :: .table entries :: frames => do
    let entries ← entries.assign path key value
    return { reading with frames := .table entries :: frames, place := .afterEntry }
  | .assignment path key :: _ => do
    return { tables := ← reading.tables.assign path key value, frames := [], place := .lineEnd }
  | _ => .error .arrangement

/-- Close the innermost list. -/
def closeList (reading : Reading) : Except Fault Reading :=
  match reading.frames with
  | .list reversed :: frames => { reading with frames }.deliver (.list reversed.reverse)
  | _ => .error .arrangement

/-- Close the innermost table. -/
def closeTable (reading : Reading) : Except Fault Reading :=
  match reading.frames with
  | .table entries :: frames => { reading with frames }.deliver (.table (entryItems entries))
  | _ => .error .arrangement

/-- The current assignment stands in a line of its own. -/
def isInLine (reading : Reading) : Bool :=
  match reading.frames with
  | [] | [.assignment _ _] => true
  | _ => false

/-- Read a line end in front of an item: it counts as a blank inside of lists and tables. -/
def skipNewline (reading : Reading) : Except Fault Reading :=
  if reading.isInLine then .error .arrangement else .ok reading

/-- Begin a key. -/
def beginKey (reading : Reading) (token : Token) : Except Fault Reading := do
  return { reading with place := .key (← KeyScan.start.step token) }

/-- Read a token where an item is expected. -/
def readItem (reading : Reading) (token : Token) : Except Fault Reading :=
  match token with
  | .newline => reading.skipNewline
  | .word characters =>
    match Scalar.ofWord? characters with
    | some value => reading.deliver value
    | none => .error (.word (String.ofList characters))
  | .quoted content _ => reading.deliver (.text content)
  | .openList => reading.openFrame (.list []) .item
  | .openTable => reading.openFrame (.table []) .entry
  | .closeList => reading.closeList
  | _ => .error .arrangement

/-- Open the table of a header. -/
def readHeader (reading : Reading) (header : Header) : Except Fault Reading := do
  return { reading with tables := ← reading.tables.openTable header, place := .lineEnd }

/-- Read a token inside a header after its first bracket. -/
def readHeaderKey (reading : Reading) (repeated : Bool) (scan : KeyScan) (token : Token) :
    Except Fault Reading := do
  if token == .closeList then
    let (path, key) ← scan.finish
    let header : Header := ⟨path, key, repeated⟩
    if repeated then return { reading with place := .headerEnd header }
    else reading.readHeader header
  else return { reading with place := .headerKey repeated (← scan.step token) }

/-- Read an equals sign after a key. -/
def beginItem (reading : Reading) (path : List String) (key : String) : Reading :=
  { reading with frames := .assignment path key :: reading.frames, place := .item }

/-- Read a token inside the key of an assignment. A line end after the key counts as a blank inside
of a table. -/
def readKey (reading : Reading) (scan : KeyScan) (token : Token) : Except Fault Reading := do
  if token == .equals then
    let (path, key) ← scan.finish
    return reading.beginItem path key
  else if token == .newline && !reading.isInLine then
    let (path, key) ← scan.finish
    return { reading with place := .equals path key }
  else return { reading with place := .key (← scan.step token) }

/-- Read a token where a blank says nothing. -/
def readMark (reading : Reading) (token : Token) : Except Fault Reading :=
  match reading.place, token with
  | .lineStart, .newline => .ok reading
  | .lineStart, .openList => .ok { reading with place := .headerStart }
  | .lineStart, token => reading.beginKey token
  | .lineEnd, .newline => .ok { reading with place := .lineStart }
  | .headerKey repeated scan, token => reading.readHeaderKey repeated scan token
  | .key scan, token => reading.readKey scan token
  | .equals _ _, .newline => .ok reading
  | .equals path key, .equals => .ok (reading.beginItem path key)
  | .item, token => reading.readItem token
  | .afterItem, .newline | .afterEntry, .newline | .entry, .newline => .ok reading
  | .afterItem, .comma => .ok { reading with place := .item }
  | .afterItem, .closeList => reading.closeList
  | .entry, .closeTable | .afterEntry, .closeTable => reading.closeTable
  | .entry, token => reading.beginKey token
  | .afterEntry, .comma => .ok { reading with place := .entry }
  | _, _ => .error .arrangement

/-- Read a token. -/
def step (reading : Reading) (token : Token) : Except Fault Reading :=
  match reading.place, token with
  | .headerStart, .openList => .ok { reading with place := .headerKey true .start }
  | .headerStart, token => reading.readHeaderKey false .start token
  | .headerEnd header, .closeList => reading.readHeader header
  | .headerEnd _, _ => .error .arrangement
  | _, .blank _ => .ok reading
  | _, token => reading.readMark token

/-- The document at the end of its tokens. -/
def finish (reading : Reading) : Except Fault Document :=
  match reading.place with
  | .lineStart | .lineEnd => reading.tables.document
  | _ => .error .arrangement

end Reading

/-- The document that tokens form. -/
def Document.ofTokens (tokens : List Token) : Except Fault Document := do
  (← tokens.foldlM Reading.step .start).finish

/-- The document that a text describes. -/
def Document.ofText (text : String) : Except Fault Document :=
  match Token.ofDocument? text with
  | some tokens => Document.ofTokens tokens
  | none => .error .character

end Workflow.Toml
