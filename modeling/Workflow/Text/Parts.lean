/-!
# Texts in parts

A text cut at every occurrence of a character has one part more than the character occurs; the
parts may be empty.
-/
namespace Workflow.Text

/-- The parts of a text between a character: the first one, which is always there, and the
others. -/
def splitAt (separator : Char) : List Char → List Char × List (List Char)
  | [] => ([], [])
  | character :: rest =>
    let (first, others) := splitAt separator rest
    if character = separator then ([], first :: others) else (character :: first, others)

end Workflow.Text
