import Workflow.Value.Writer

/-!
# The indented text of a value

Every item of a list and every field of a record stands on a line of its own, two blanks further
right than what it is in; empty lists and records stay on one line.
-/
namespace Workflow.Value

/-- The beginning of a line at a depth. -/
def indentation (depth : Nat) : String := "\n" ++ "".pushn ' ' (2 * depth)

/-- Lines between an opening and a closing bracket. -/
def block (opening closing : String) (depth : Nat) (lines : List String) : String :=
  if lines.isEmpty then opening ++ closing
  else
    opening ++ ",".intercalate (lines.map (indentation (depth + 1) ++ ·)) ++ indentation depth ++
      closing

mutual

/-- The indented text of a value at a depth. -/
def prettyAt (depth : Nat) : Value → String
  | .list items => block "[" "]" depth (prettyItems (depth + 1) items)
  | .record fields => block "\x7b" "\x7d" depth (prettyFields (depth + 1) fields)
  | other => other.compact

/-- The indented texts of items. -/
def prettyItems (depth : Nat) : List Value → List String
  | [] => []
  | item :: rest => item.prettyAt depth :: prettyItems depth rest

/-- The indented texts of fields. -/
def prettyFields (depth : Nat) : List (String × Value) → List String
  | [] => []
  | (key, value) :: rest =>
    (quoted key ++ ": " ++ value.prettyAt depth) :: prettyFields depth rest

end

/-- The indented text of a value. -/
def pretty (value : Value) : String := value.prettyAt 0

end Workflow.Value
