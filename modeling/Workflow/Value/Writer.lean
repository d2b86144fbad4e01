import Workflow.Value

/-!
# The compact text of a value

Values are written without any blank space, records in the order of their fields. In a text the
quote, the backslash and the control characters below the blank are escaped, with the short
escapes where they exist; everything else stands for itself.
-/
namespace Workflow.Value

/-- The hexadecimal digit of a number below sixteen. -/
def hexDigit (value : Nat) : Char := Nat.digitChar value

/-- A character as it stands between the quotes of a text. -/
def escapedCharacter (character : Char) : List Char :=
  match character with
  | '"' => ['\\', '"']
  | '\\' => ['\\', '\\']
  | '\x08' => ['\\', 'b']
  | '\x0c' => ['\\', 'f']
  | '\n' => ['\\', 'n']
  | '\r' => ['\\', 'r']
  | '\t' => ['\\', 't']
  | _ =>
    if character.toNat < 0x20 then
      ['\\', 'u', '0', '0', hexDigit (character.toNat / 16), hexDigit (character.toNat % 16)]
    else [character]

/-- A text between quotes. -/
def quoted (text : String) : String :=
  String.ofList ('"' :: text.toList.flatMap escapedCharacter ++ ['"'])

/-- A number: whole numbers in decimal, the others in the notation of `Binary64.text`. -/
def numberText : Number → String
  | .integer value => toString value
  | .float value => value.text

mutual

/-- The compact text of a value. -/
def compact : Value → String
  | .null => "null"
  | .bool true => "true"
  | .bool false => "false"
  | .number value => numberText value
  | .text value => quoted value
  | .list items => "[" ++ compactItems true items ++ "]"
  | .record fields => "\x7b" ++ compactFields true fields ++ "\x7d"

/-- Items separated by commas. -/
def compactItems (first : Bool) : List Value → String
  | [] => ""
  | item :: rest => (if first then "" else ",") ++ item.compact ++ compactItems false rest

/-- Fields separated by commas, each key before its value. -/
def compactFields (first : Bool) : List (String × Value) → String
  | [] => ""
  | (key, value) :: rest =>
    (if first then "" else ",") ++ quoted key ++ ":" ++ value.compact ++ compactFields false rest

end

end Workflow.Value
