/-!
# The tokens of a document

An automaton reads a document character by character and cuts it into quoted texts, words, marks,
blanks and line ends; comments are dropped. A word is a run of the characters of bare keys and
unquoted scalars. A line ends with a line feed, before which a carriage return may stand. Inside a
text of several lines a line end belongs to the text as it is written, unless it comes first.
-/
namespace Workflow.Toml

/-- The smallest parts of a document. -/
inductive Token where
  /-- Blank space inside a line; `single` when it is one blank and nothing else. -/
  | blank (single : Bool)
  | newline
  /-- A run of the characters of bare keys and scalars. -/
  | word (characters : List Char)
  /-- A quoted text; `multiline` when it was written between three quotes. -/
  | quoted (content : String) (multiline : Bool)
  | equals
  | comma
  | openList
  | closeList
  | openTable
  | closeTable
deriving DecidableEq, Repr

namespace Token

/-- Where the automaton stands. The characters of a text or word so far are kept in reverse. -/
inductive Position where
  | between
  | inWord (reversed : List Char)
  | inComment
  /-- After a carriage return between tokens. -/
  | afterReturn
  /-- After one quote. -/
  | opened (quote : Char)
  /-- After two quotes: the text is empty, or a text of several lines begins. -/
  | openedTwice (quote : Char)
  /-- In a text of one line. -/
  | inLine (quote : Char) (reversed : List Char)
  /-- In a text of several lines; `fresh` at its beginning, where a line end does not count. -/
  | inLines (quote : Char) (fresh : Bool) (reversed : List Char)
  /-- After a carriage return in a text of several lines. -/
  | afterReturnIn (quote : Char) (fresh : Bool) (reversed : List Char)
  /-- After one or two quotes in a text of several lines. -/
  | quotesIn (quote : Char) (second : Bool) (reversed : List Char)
  /-- After three quotes that end a text of several lines and `extra` ones that belong to it. -/
  | closing (quote : Char) (extra : Nat) (reversed : List Char)
  | escape (multiline : Bool) (reversed : List Char)
  /-- Among the hexadecimal digits of an escape, of which `missing` are still to come. -/
  | hexadecimal (multiline : Bool) (missing value : Nat) (reversed : List Char)
  /-- After a backslash at the end of a line: blanks and line ends are left out, and `ended` when
  the line end has been seen. -/
  | joining (ended : Bool) (reversed : List Char)
  /-- After a carriage return among them. -/
  | joiningReturn (reversed : List Char)
deriving DecidableEq, Repr

/-- The state of the automaton: its position and the tokens so far in reverse. -/
structure Scan where
  position : Position
  /-- The tokens so far, the last one first. -/
  tokens : List Token
deriving DecidableEq, Repr

/-- The characters of words. -/
def isWordCharacter (character : Char) : Bool :=
  character.isAlphanum || character = '_' || character = '-' || character = '+' ||
    character = '.' || character = ':'

/-- The control characters, of which only the tab may stand in a text or comment. -/
def isForbidden (character : Char) : Bool :=
  (character.toNat < 0x20 && character ≠ '\t') || character.toNat = 0x7F

/-- Add a blank character: it joins the blank before it. -/
def pushBlank (character : Char) : List Token → List Token
  | .blank _ :: tokens => .blank false :: tokens
  | tokens => .blank (character = ' ') :: tokens

/-- The quoted text whose characters have been read. -/
def ofQuoted (reversed : List Char) (multiline : Bool) : Token :=
  .quoted (String.ofList reversed.reverse) multiline

/-- Read a character between tokens. -/
def between? (tokens : List Token) (character : Char) : Option Scan :=
  match character with
  | '=' => some ⟨.between, .equals :: tokens⟩
  | ',' => some ⟨.between, .comma :: tokens⟩
  | '[' => some ⟨.between, .openList :: tokens⟩
  | ']' => some ⟨.between, .closeList :: tokens⟩
  | '{' => some ⟨.between, .openTable :: tokens⟩
  | '}' => some ⟨.between, .closeTable :: tokens⟩
  | '#' => some ⟨.inComment, tokens⟩
  | '\n' => some ⟨.between, .newline :: tokens⟩
  | '\r' => some ⟨.afterReturn, tokens⟩
  | '"' => some ⟨.opened '"', tokens⟩
  | '\'' => some ⟨.opened '\'', tokens⟩
  | ' ' | '\t' => some ⟨.between, pushBlank character tokens⟩
  | _ => if isWordCharacter character then some ⟨.inWord [character], tokens⟩ else none

/-- Read a character of a text of one line. Only double quotes know escapes. -/
def inLine? (quote : Char) (reversed : List Char) (character : Char) (tokens : List Token) :
    Option Scan :=
  if character = quote then some ⟨.between, ofQuoted reversed false :: tokens⟩
  else if character = '\\' ∧ quote = '"' then some ⟨.escape false reversed, tokens⟩
  else if isForbidden character then none
  else some ⟨.inLine quote (character :: reversed), tokens⟩

/-- Read a character of a text of several lines. -/
def inLines? (quote : Char) (fresh : Bool) (reversed : List Char) (character : Char)
    (tokens : List Token) : Option Scan :=
  if character = quote then some ⟨.quotesIn quote false reversed, tokens⟩
  else if character = '\n' then
    some ⟨.inLines quote false (if fresh then reversed else '\n' :: reversed), tokens⟩
  else if character = '\r' then some ⟨.afterReturnIn quote fresh reversed, tokens⟩
  else if character = '\\' ∧ quote = '"' then some ⟨.escape true reversed, tokens⟩
  else if isForbidden character then none
  else some ⟨.inLines quote false (character :: reversed), tokens⟩

/-- Go on in a text with escapes after one more character of it. -/
def resume (multiline : Bool) (reversed : List Char) (tokens : List Token) : Scan :=
  if multiline then ⟨.inLines '"' false reversed, tokens⟩ else ⟨.inLine '"' reversed, tokens⟩

/-- The character that a short escape stands for. -/
def shortEscape? (letter : Char) : Option Char :=
  match letter with
  | 'b' => some '\x08'
  | 't' => some '\t'
  | 'n' => some '\n'
  | 'f' => some '\x0c'
  | 'r' => some '\r'
  | 'e' => some '\x1b'
  | '"' => some '"'
  | '\\' => some '\\'
  | _ => none

/-- Read the character after a backslash. -/
def escape? (multiline : Bool) (reversed : List Char) (letter : Char) (tokens : List Token) :
    Option Scan :=
  match letter with
  | 'x' => some ⟨.hexadecimal multiline 2 0 reversed, tokens⟩
  | 'u' => some ⟨.hexadecimal multiline 4 0 reversed, tokens⟩
  | 'U' => some ⟨.hexadecimal multiline 8 0 reversed, tokens⟩
  | _ =>
    match shortEscape? letter with
    | some character => some (resume multiline (character :: reversed) tokens)
    | none =>
      if !multiline then none
      else match letter with
        | ' ' | '\t' => some ⟨.joining false reversed, tokens⟩
        | '\n' => some ⟨.joining true reversed, tokens⟩
        | '\r' => some ⟨.joiningReturn reversed, tokens⟩
        | _ => none

/-- The value of a hexadecimal digit. -/
def hexValue? (digit : Char) : Option Nat :=
  if digit.isDigit then some (digit.toNat - '0'.toNat)
  else if 'a' ≤ digit ∧ digit ≤ 'f' then some (digit.toNat - 'a'.toNat + 10)
  else if 'A' ≤ digit ∧ digit ≤ 'F' then some (digit.toNat - 'A'.toNat + 10)
  else none

/-- The character of a code point, if it has one. -/
def ofCodePoint? (code : Nat) : Option Char :=
  if code < 0xD800 ∨ (0xDFFF < code ∧ code ≤ 0x10FFFF) then some (Char.ofNat code) else none

/-- Read a digit of an escape; the last one makes the character. -/
def hexadecimal? (multiline : Bool) (missing value : Nat) (reversed : List Char)
    (digit : Char) (tokens : List Token) : Option Scan := do
  let value := value * 16 + (← hexValue? digit)
  if missing ≤ 1 then
    let character ← ofCodePoint? value
    some (resume multiline (character :: reversed) tokens)
  else some ⟨.hexadecimal multiline (missing - 1) value reversed, tokens⟩

/-- Read a character after a backslash at the end of a line. -/
def joining? (ended : Bool) (reversed : List Char) (character : Char) (tokens : List Token) :
    Option Scan :=
  match character with
  | ' ' | '\t' => some ⟨.joining ended reversed, tokens⟩
  | '\n' => some ⟨.joining true reversed, tokens⟩
  | '\r' => some ⟨.joiningReturn reversed, tokens⟩
  | _ => if ended then inLines? '"' false reversed character tokens else none

/-- Read one character. -/
def Scan.step? (scan : Scan) (character : Char) : Option Scan :=
  let tokens := scan.tokens
  match scan.position with
  | .between => between? tokens character
  | .inWord reversed =>
    if isWordCharacter character then some ⟨.inWord (character :: reversed), tokens⟩
    else between? (.word reversed.reverse :: tokens) character
  | .inComment =>
    if character = '\n' ∨ character = '\r' then between? tokens character
    else if isForbidden character then none
    else some scan
  | .afterReturn => if character = '\n' then some ⟨.between, .newline :: tokens⟩ else none
  | .opened quote =>
    if character = quote then some ⟨.openedTwice quote, tokens⟩
    else inLine? quote [] character tokens
  | .openedTwice quote =>
    if character = quote then some ⟨.inLines quote true [], tokens⟩
    else between? (.quoted "" false :: tokens) character
  | .inLine quote reversed => inLine? quote reversed character tokens
  | .inLines quote fresh reversed => inLines? quote fresh reversed character tokens
  | .afterReturnIn quote fresh reversed =>
    if character = '\n' then
      some ⟨.inLines quote false (if fresh then reversed else '\n' :: '\r' :: reversed), tokens⟩
    else none
  | .quotesIn quote second reversed =>
    if character = quote then
      if second then some ⟨.closing quote 0 reversed, tokens⟩
      else some ⟨.quotesIn quote true reversed, tokens⟩
    else
      let reversed := if second then quote :: quote :: reversed else quote :: reversed
      inLines? quote false reversed character tokens
  | .closing quote extra reversed =>
    if character = quote ∧ extra < 2 then
      some ⟨.closing quote (extra + 1) (quote :: reversed), tokens⟩
    else between? (ofQuoted reversed true :: tokens) character
  | .escape multiline reversed => escape? multiline reversed character tokens
  | .hexadecimal multiline missing value reversed =>
    hexadecimal? multiline missing value reversed character tokens
  | .joining ended reversed => joining? ended reversed character tokens
  | .joiningReturn reversed =>
    if character = '\n' then some ⟨.joining true reversed, tokens⟩ else none

/-- The tokens at the end of the document, unless it ends inside of one. -/
def Scan.finish? (scan : Scan) : Option (List Token) :=
  match scan.position with
  | .between | .inComment => some scan.tokens.reverse
  | .inWord reversed => some (.word reversed.reverse :: scan.tokens).reverse
  | .openedTwice _ => some (.quoted "" false :: scan.tokens).reverse
  | .closing _ _ reversed => some (ofQuoted reversed true :: scan.tokens).reverse
  | _ => none

/-- A word has the form of a date. -/
def isDate (word : List Char) : Bool :=
  word.length = 10 && word[4]? = some '-' && word[7]? = some '-'

/-- Join a date and a time of day with one blank between them into one word. -/
def joinMoments : List Token → List Token
  | .word date :: .blank true :: .word time :: rest =>
    if isDate date && (time.head?.map Char.isDigit).getD false then
      .word (date ++ ' ' :: time) :: joinMoments rest
    else .word date :: .blank true :: joinMoments (.word time :: rest)
  | token :: rest => token :: joinMoments rest
  | [] => []

/-- The tokens of a document; a byte order mark at the front is no part of it. -/
def ofDocument? (document : String) : Option (List Token) := do
  let characters := match document.toList with
    | '\uFEFF' :: rest => rest
    | characters => characters
  let scan ← characters.foldlM Scan.step? ⟨.between, []⟩
  let tokens ← scan.finish?
  some (joinMoments tokens)

end Token

end Workflow.Toml
