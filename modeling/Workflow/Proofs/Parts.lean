import Workflow.Text.Parts

/-!
# Texts in parts

Cutting a text and putting its parts together again with the separator between them undo each other,
as long as no part contains the separator.
-/
namespace Workflow.Text

/-- The parts with the separator between them. -/
def joined (separator : Char) (first : List Char) (others : List (List Char)) : List Char :=
  first ++ others.flatMap (separator :: ·)

/-- A separator ends an empty part. -/
theorem splitAt_separator (separator : Char) (rest : List Char) :
    splitAt separator (separator :: rest) =
      ([], (splitAt separator rest).1 :: (splitAt separator rest).2) := if_pos rfl

/-- Any other character belongs to the first part. -/
theorem splitAt_cons {separator character : Char} (other : character ≠ separator)
    (rest : List Char) : splitAt separator (character :: rest) =
      (character :: (splitAt separator rest).1, (splitAt separator rest).2) := if_neg other

/-- What comes before a separator is put in front of the first part. -/
theorem splitAt_append {separator : Char} {before : List Char} (clear : separator ∉ before)
    (rest : List Char) : splitAt separator (before ++ rest) =
      (before ++ (splitAt separator rest).1, (splitAt separator rest).2) := by
  induction before with
  | nil => rfl
  | cons character before ih =>
    obtain ⟨other, later⟩ := List.ne_and_not_mem_of_not_mem_cons clear
    rw [List.cons_append, splitAt_cons (Ne.symm other), ih later, List.cons_append]

/-- A text without the separator is its only part. -/
theorem splitAt_clear {separator : Char} {text : List Char} (clear : separator ∉ text) :
    splitAt separator text = (text, []) := by
  have whole : splitAt separator (text ++ []) = (text ++ [], []) := splitAt_append clear []
  rwa [List.append_nil] at whole

/-- What comes after a separator has the last parts. -/
theorem splitAt_append_separator (separator : Char) (before after : List Char) :
    splitAt separator (before ++ separator :: after) =
      ((splitAt separator before).1,
        (splitAt separator before).2 ++
          (splitAt separator after).1 :: (splitAt separator after).2) := by
  induction before with
  | nil => exact splitAt_separator separator after
  | cons character before ih =>
    rw [List.cons_append]
    by_cases same : character = separator
    · subst same
      rw [splitAt_separator, splitAt_separator, ih]
      rfl
    · rw [splitAt_cons same, splitAt_cons same, ih]

/-- Parts without the separator are found again. -/
theorem splitAt_joined {separator : Char} {first : List Char} {others : List (List Char)}
    (clear : separator ∉ first) (allClear : ∀ part ∈ others, separator ∉ part) :
    splitAt separator (joined separator first others) = (first, others) := by
  induction others generalizing first with
  | nil =>
    rw [joined, splitAt_append clear]
    exact congrArg (·, []) (List.append_nil first)
  | cons next others ih =>
    have found : splitAt separator (joined separator next others) = (next, others) :=
      ih (allClear next List.mem_cons_self)
        fun part among => allClear part (List.mem_cons_of_mem next among)
    have rest : (next :: others).flatMap (separator :: ·) =
        separator :: joined separator next others := rfl
    rw [joined, splitAt_append clear, rest, splitAt_separator, found, List.append_nil]

/-- A text is its parts with the separator between them, and they are without it. -/
theorem joined_splitAt (separator : Char) (text : List Char) :
    joined separator (splitAt separator text).1 (splitAt separator text).2 = text ∧
      separator ∉ (splitAt separator text).1 ∧
      ∀ part ∈ (splitAt separator text).2, separator ∉ part := by
  induction text with
  | nil => simp [splitAt, joined]
  | cons character rest ih =>
    obtain ⟨whole, clear, allClear⟩ := ih
    by_cases same : character = separator
    · subst same
      rw [splitAt_separator]
      refine ⟨congrArg (character :: ·) whole, List.not_mem_nil, ?_⟩
      intro part among
      rcases List.mem_cons.mp among with rfl | later
      · exact clear
      · exact allClear part later
    · rw [splitAt_cons same]
      exact ⟨congrArg (character :: ·) whole,
        List.not_mem_cons_of_ne_of_not_mem (Ne.symm same) clear, allClear⟩

end Workflow.Text
