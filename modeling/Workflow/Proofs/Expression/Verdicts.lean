import Workflow.Proofs.Trimming
import Workflow.Proofs.Expression.Bytes

/-!
# Verdicts

A condition is judged as the grammar reads it: by the truth of its one operand or by comparing two.
Where the grammar does not read it, or a side of the comparison is blank, the step runs and the
cause is reported.
-/
namespace Workflow.Condition

/-! ## Judging what has been read -/

/-- A side of a comparison has a value if it is not blank. -/
theorem operand_isOk_iff (token : List Char) (context : Context) :
    (∃ value, operand token context = .ok value) ↔ Text.trim token ≠ [] := by
  rw [operand]
  split
  · simp [*]
  · split
    · simp [*]
    · split <;> simp [*]

/-- The operand does not depend on the blank space around it. -/
theorem operand_trim (token : List Char) (context : Context) :
    operand (Text.trim token) context = operand token context := by
  rw [operand, operand, Text.trim_trim]

/-- A clean condition is judged by the truth of its one operand. -/
theorem judge_clean {text : List Char} (clean : Clean text) (context : Context) :
    judge text context = (operand text context).map isTruthy := by
  rw [judge, (split_whole_iff text).mpr clean]
  cases operand text context <;> rfl

/-- A condition of two parts is judged by comparing them. -/
theorem judge_parts {text : List Char} {parts : Split} (cuts : parts.Cuts text)
    (context : Context) : judge text context = (do
      return compare parts.comparison (← operand parts.left context)
        (← operand parts.right context)) := by
  rw [judge, (split_parts_iff text parts).mpr cuts]
  rfl

/-- The conditions that can be judged: one operand, or two with neither of them blank. -/
def Readable (text : List Char) : Prop :=
  Clean text ∨ ∃ parts : Split, parts.Cuts text ∧ Text.trim parts.left ≠ [] ∧
    Text.trim parts.right ≠ []

/-- A condition that is not blank is judged just if it is readable. -/
theorem judge_isOk_iff {text : List Char} (filled : Text.trim text ≠ []) (context : Context) :
    (∃ holds, judge text context = .ok holds) ↔ Readable text := by
  constructor
  · rintro ⟨holds, given⟩
    match cut : split text with
    | .error cause => simp [judge, cut, bind, Except.bind] at given
    | .ok none => exact .inl ((split_whole_iff text).mp cut)
    | .ok (some parts) =>
      have cuts : parts.Cuts text := (split_parts_iff text parts).mp cut
      rw [judge_parts cuts] at given
      refine .inr ⟨parts, cuts, ?_⟩
      rw [← operand_isOk_iff _ context, ← operand_isOk_iff _ context]
      cases left : operand parts.left context <;> cases right : operand parts.right context <;>
        simp_all [bind, Except.bind]
  · rintro (clean | ⟨parts, cuts, left, right⟩)
    · obtain ⟨value, given⟩ := (operand_isOk_iff text context).mpr filled
      exact ⟨isTruthy value, by rw [judge_clean clean, given]; rfl⟩
    · obtain ⟨first, givenFirst⟩ := (operand_isOk_iff _ context).mpr left
      obtain ⟨second, givenSecond⟩ := (operand_isOk_iff _ context).mpr right
      exact ⟨compare parts.comparison first second, by
        rw [judge_parts cuts, givenFirst, givenSecond]; rfl⟩

/-! ## What a condition is and what it amounts to -/

/-- What is judged of a condition without blank space around it. -/
structure Verdict.Judges (verdict : Verdict) (text : List Char) (context : Context) : Prop where
  blank : text = [] → verdict = ⟨true, none⟩
  /-- The cause is reported just for the conditions outside the grammar. -/
  unreadable : verdict.unreadable.isSome ↔ text ≠ [] ∧ ¬Readable text
  reported : ∀ report ∈ verdict.unreadable, report.1 = String.ofList text ∧ verdict.holds = true
  /-- One operand is judged by its truth. -/
  single : text ≠ [] → Clean text → ∃ value,
    operand text context = .ok value ∧ verdict = ⟨isTruthy value, none⟩
  /-- Two operands are compared. -/
  compared : ∀ parts : Split, parts.Cuts text → Text.trim parts.left ≠ [] →
    Text.trim parts.right ≠ [] → ∃ left right,
      operand (Text.trim parts.left) context = .ok left ∧
      operand (Text.trim parts.right) context = .ok right ∧
      verdict = ⟨compare parts.comparison left right, none⟩

/-- A condition that is not blank is judged without the blanks around it. -/
theorem evaluate_filled {condition : String} (filled : Text.trim condition.toList ≠ [])
    (context : Context) : evaluate (some condition) context =
      match judge (Text.trim condition.toList) context with
      | .ok holds => ⟨holds, none⟩
      | .error cause => ⟨true, some (String.ofList (Text.trim condition.toList), cause)⟩ := by
  rw [evaluate, Option.map_some]
  split
  · contradiction
  · rename_i blank
    exact absurd (Option.some.inj blank) filled
  · rename_i same
    cases same
    rfl

/-- A condition that can be judged has the verdict of its judgment, without a cause. -/
theorem evaluate_of_ok {condition : String} {context : Context} {holds : Bool}
    (filled : Text.trim condition.toList ≠ [])
    (judged : judge (Text.trim condition.toList) context = .ok holds) :
    evaluate (some condition) context = ⟨holds, none⟩ := by
  rw [evaluate_filled filled, judged]

/-- A condition that is cut is not empty. -/
theorem Split.Cuts.ne_nil {parts : Split} {text : List Char} (cuts : parts.Cuts text) :
    text ≠ [] := by
  rintro rfl
  have length := congrArg List.length cuts.whole
  have := parts.comparison.token_length_pos
  simp only [List.length_append, List.length_nil] at length
  omega

/-- The verdict of a condition judges it without the blanks around it. -/
theorem evaluate_judges (condition : String) (context : Context) :
    (evaluate (some condition) context).Judges (Text.trim condition.toList) context where
  blank := by
    intro empty
    rw [evaluate, Option.map_some, empty]
  unreadable := by
    by_cases filled : Text.trim condition.toList = []
    · simp [evaluate, filled]
    · have judged := judge_isOk_iff (by rwa [Text.trim_trim] : Text.trim (Text.trim _) ≠ []) context
      rw [← judged, evaluate_filled filled]
      cases judge (Text.trim condition.toList) context <;> simp [filled]
  reported := by
    intro report reported
    by_cases filled : Text.trim condition.toList = []
    · simp [evaluate, filled] at reported
    · rw [evaluate_filled filled] at reported ⊢
      cases given : judge (Text.trim condition.toList) context with
      | ok holds => simp [given] at reported
      | error cause =>
        rw [given] at reported
        cases reported
        exact ⟨rfl, rfl⟩
  single := by
    intro filled clean
    obtain ⟨value, given⟩ := (operand_isOk_iff (Text.trim condition.toList) context).mpr
      (by rwa [Text.trim_trim])
    exact ⟨value, given, evaluate_of_ok filled (by rw [judge_clean clean, given]; rfl)⟩
  compared := by
    intro parts cuts filledLeft filledRight
    obtain ⟨left, givenLeft⟩ := (operand_isOk_iff _ context).mpr filledLeft
    obtain ⟨right, givenRight⟩ := (operand_isOk_iff _ context).mpr filledRight
    refine ⟨left, right, by rwa [operand_trim], by rwa [operand_trim], ?_⟩
    exact evaluate_of_ok cuts.ne_nil (by rw [judge_parts cuts, givenLeft, givenRight]; rfl)

/-- The conditions that are read are those of the grammar, each in its one way, no reading of their
bytes cuts a character apart, and the verdict is that of the grammar. -/
theorem read_by_grammar (text : List Char) (condition : String) (context : Context) :
    (split text = .ok none ↔ Clean text) ∧
    (∀ parts : Split, split text = .ok (some parts) ↔ parts.Cuts text) ∧
    (∀ parts others : Split, parts.Cuts text → others.Cuts text → parts = others) ∧
    ((∃ cause, split text = .error cause) ↔
      ¬Clean text ∧ ∀ parts : Split, ¬parts.Cuts text) ∧
    splitBytes text = some (split text) ∧
    (evaluate (some condition) context).Judges (Text.trim condition.toList) context :=
  ⟨split_whole_iff text, split_parts_iff text, fun _ _ => Split.Cuts.unique, split_error_iff text,
    splitBytes_eq text, evaluate_judges condition context⟩

end Workflow.Condition
