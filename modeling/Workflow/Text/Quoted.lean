import Workflow.Text.Invisible

/-!
# Quoted texts

A quoted text stands between double quotes and shows characters that cannot be seen as escapes:
short ones for the common controls, else the code point in hexadecimal between braces.
-/
namespace Workflow.Text

/-- A character of a quoted text. -/
def quotedCharacter (character : Char) : List Char :=
  match character with
  | '"' => ['\\', '"']
  | '\\' => ['\\', '\\']
  | '\x00' => ['\\', '0']
  | '\t' => ['\\', 't']
  | '\n' => ['\\', 'n']
  | '\r' => ['\\', 'r']
  | _ =>
    if isInvisible character then
      ['\\', 'u', '{'] ++ Nat.toDigits 16 character.toNat ++ ['}']
    else [character]

/-- A text between double quotes. -/
def quoted (text : String) : String :=
  String.ofList ('"' :: (text.toList.flatMap quotedCharacter ++ ['"']))

end Workflow.Text
