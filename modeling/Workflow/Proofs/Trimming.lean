import Mathlib.Data.List.DropRight
import Workflow.Text.Blank

/-!
# Trimming

A text has been trimmed when neither its first nor its last character is blank. Trimming it again
leaves it as it is, so a name that has been checked passes the check a second time unchanged.
-/
namespace Workflow.Text

/-- Blank characters at the end are removed as those at the front of the reversed list. -/
theorem trimEnd_eq (characters : List Char) :
    trimEnd characters = characters.rdropWhile isBlank := rfl

/-- A text without the blanks at its end is a beginning of it. -/
theorem trimEnd_prefix (characters : List Char) : trimEnd characters <+: characters := by
  rw [trimEnd_eq]
  exact List.rdropWhile_prefix isBlank characters

/-- A blank at the end makes no difference. -/
theorem trimEnd_concat {last : Char} (blank : isBlank last = true) (front : List Char) :
    trimEnd (front ++ [last]) = trimEnd front := by
  rw [trimEnd_eq, trimEnd_eq, List.rdropWhile_concat_pos isBlank front last blank]

/-- Nothing is removed at the end of a text just if its last character is not blank. -/
theorem trimEnd_eq_self_iff {characters : List Char} :
    trimEnd characters = characters ↔
      ∀ last ∈ characters.getLast?, isBlank last = false := by
  rw [trimEnd_eq, List.rdropWhile_eq_self_iff]
  constructor
  · intro unblank last ends
    obtain ⟨front, rfl⟩ := List.getLast?_eq_some_iff.mp ends
    simpa using unblank (by simp)
  · intro unblank nonempty
    rw [unblank _ (List.getLast?_eq_some_getLast nonempty)]
    exact Bool.false_ne_true

/-- What follows a character that is not blank can be trimmed by itself. -/
theorem trimEnd_cons {first : Char} (unblank : isBlank first = false) (rest : List Char) :
    trimEnd (first :: rest) = first :: trimEnd rest := by
  have stops : [first].dropWhile isBlank = [first] := by simp [unblank]
  rw [trimEnd, trimEnd, List.reverse_cons, List.dropWhile_append, stops]
  split
  next none => rw [List.isEmpty_iff.mp none, List.reverse_nil, List.reverse_singleton]
  next => rw [List.reverse_append, List.reverse_singleton, List.singleton_append]

/-- Nothing is removed at the front of a text whose first character is not blank. -/
theorem trimStart_eq_self {characters : List Char}
    (starts : ∀ first ∈ characters.head?, isBlank first = false) :
    trimStart characters = characters := by
  cases characters with
  | nil => rfl
  | cons first rest => rw [trimStart, List.dropWhile_cons_of_neg (by simp [starts first rfl])]

/-- A text that begins and ends without a blank is trimmed. -/
theorem trim_eq_self {characters : List Char}
    (starts : ∀ first ∈ characters.head?, isBlank first = false)
    (ends : ∀ last ∈ characters.getLast?, isBlank last = false) : trim characters = characters := by
  rw [trim, trimStart_eq_self starts, trimEnd_eq_self_iff.mpr ends]

/-- Removing blank characters at the end uncovers none at the front. -/
theorem trimStart_trimEnd {characters : List Char} (started : trimStart characters = characters) :
    trimStart (trimEnd characters) = trimEnd characters := by
  have front : ∀ nonempty : 0 < characters.length, ¬isBlank (characters.get ⟨0, nonempty⟩) :=
    List.dropWhile_eq_self_iff.mp started
  have shorter : trimEnd characters <+: characters := trimEnd_prefix characters
  apply List.dropWhile_eq_self_iff.mpr
  intro nonempty
  have first : (trimEnd characters).get ⟨0, nonempty⟩ =
      characters.get ⟨0, Nat.lt_of_lt_of_le nonempty shorter.length_le⟩ :=
    shorter.getElem nonempty
  have unblank := front (Nat.lt_of_lt_of_le nonempty shorter.length_le)
  rwa [← first] at unblank

/-- Nothing is left of a text just if all of it is blank. -/
theorem trim_eq_nil_iff {characters : List Char} :
    trim characters = [] ↔ ∀ character ∈ characters, isBlank character = true := by
  rw [trim, trimEnd_eq, List.rdropWhile_eq_nil_iff, trimStart]
  constructor
  · intro blank
    cases left : characters.dropWhile isBlank with
    | nil => exact List.dropWhile_eq_nil_iff.mp left
    | cons first rest =>
      have unblank : ¬isBlank first := by
        have head := List.head_dropWhile_not isBlank (l := characters) (by simp [left])
        simpa [left] using head
      exact absurd (blank first (by simp [left])) unblank
  · intro blank character left
    exact blank character ((List.dropWhile_sublist isBlank).subset left)

/-- To trim twice is to trim once. -/
theorem trim_trim (characters : List Char) : trim (trim characters) = trim characters := by
  have started : trimStart (trimStart characters) = trimStart characters :=
    List.dropWhile_idempotent isBlank _
  have ended : trimEnd (trimEnd (trimStart characters)) = trimEnd (trimStart characters) := by
    rw [trimEnd_eq, trimEnd_eq, List.rdropWhile_idempotent]
  calc trim (trim characters)
      = trimEnd (trimStart (trimEnd (trimStart characters))) := rfl
    _ = trimEnd (trimEnd (trimStart characters)) := by rw [trimStart_trimEnd started]
    _ = trim characters := ended

/-- Trimming a text that has been trimmed changes nothing. -/
theorem trimmed_trimmed (text : String) : trimmed (trimmed text) = trimmed text := by
  rw [trimmed, trimmed, String.toList_ofList, trim_trim]

/-- A text that is not blank is not empty when it has been trimmed. -/
theorem trimmed_ne_empty {text : String} (filled : isBlankText text = false) :
    trimmed text ≠ "" := by
  intro empty
  have none : trim text.toList = [] := by simpa [trimmed] using empty
  rw [isBlankText, List.all_eq_false] at filled
  obtain ⟨character, among, unblank⟩ := filled
  exact unblank (trim_eq_nil_iff.mp none character among)

end Workflow.Text
