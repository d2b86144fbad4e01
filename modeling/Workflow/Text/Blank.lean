/-!
# Blank characters

The characters that count as blank space around names, texts and expressions: the twenty-five
characters of the Unicode property `White_Space`. Trimming removes them from the ends of a
character list and never from its inside.
-/
namespace Workflow.Text

/-- The code points of the property `White_Space`, as inclusive ranges in ascending order. -/
def blankRanges : List (Nat × Nat) :=
  [(0x09, 0x0D), (0x20, 0x20), (0x85, 0x85), (0xA0, 0xA0), (0x1680, 0x1680), (0x2000, 0x200A),
    (0x2028, 0x2029), (0x202F, 0x202F), (0x205F, 0x205F), (0x3000, 0x3000)]

/-- A character is blank when its code point lies in one of the ranges. -/
def isBlank (character : Char) : Bool :=
  blankRanges.any fun range => range.1 ≤ character.toNat && character.toNat ≤ range.2

/-- Remove the blank characters at the front. -/
def trimStart (characters : List Char) : List Char := characters.dropWhile isBlank

/-- Remove the blank characters at the end. -/
def trimEnd (characters : List Char) : List Char := (characters.reverse.dropWhile isBlank).reverse

/-- Remove the blank characters at both ends. -/
def trim (characters : List Char) : List Char := trimEnd (trimStart characters)

/-- The text without the blank characters at its ends. -/
def trimmed (text : String) : String := String.ofList (trim text.toList)

/-- A text is blank when every character of it is. -/
def isBlankText (text : String) : Bool := text.toList.all isBlank

end Workflow.Text
