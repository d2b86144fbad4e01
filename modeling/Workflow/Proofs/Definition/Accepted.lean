import Workflow.Proofs.Definition.Checked

/-!
# What an accepted definition has passed

Of each step of an accepted definition, at every depth, it is known that the steps inside it have
distinct names, that there are some exactly if it is a group, and that it names an action if it is
to call one.
-/
namespace Workflow

/-- What checking has made sure of for a step. -/
structure Step.Accepted (step : Step) : Prop where
  /-- The steps inside it have distinct names. -/
  distinct : (step.steps.map Step.name).Nodup
  /-- Only a group has steps inside it. -/
  leaf : step.kind ≠ .parallel → step.steps = []
  /-- A group has steps inside it. -/
  filled : step.kind = .parallel → step.steps ≠ []
  /-- A step that calls an action names it. -/
  named : step.kind = .action → step.action ≠ none

/-- A step without a flaw has steps inside it only if it is a group. -/
theorem kind_of_stepFlaw? {kind : StepKind} {action output loopOver : Option String}
    {timeout : Option Nat} {hasSubSteps : Bool}
    (flawless : stepFlaw? kind action output loopOver timeout hasSubSteps = none)
    (other : kind ≠ .parallel) : hasSubSteps = false := by
  cases hasSubSteps with
  | false => rfl
  | true =>
    rw [stepFlaw?] at flawless
    split at flawless
    · cases flawless
    · simp [other] at flawless

/-- A group without a flaw has steps inside it. -/
theorem hasSubSteps_of_stepFlaw? {action output loopOver : Option String}
    {timeout : Option Nat} {hasSubSteps : Bool}
    (flawless : stepFlaw? .parallel action output loopOver timeout hasSubSteps = none) :
    hasSubSteps = true := by
  cases hasSubSteps with
  | true => rfl
  | false => simp [stepFlaw?] at flawless

/-- A step without a flaw that calls an action names it. -/
theorem action_of_stepFlaw? {action output loopOver : Option String}
    {timeout : Option Nat} {hasSubSteps : Bool}
    (flawless : stepFlaw? .action action output loopOver timeout hasSubSteps = none) :
    action ≠ none := by
  rintro rfl
  simp [stepFlaw?] at flawless

/-- Checking has made sure of a step that a draft describes. -/
theorem StepDraft.Describes.accepted {draft : StepDraft} {step : Step}
    (describes : draft.Describes step) : step.Accepted := by
  have flawless := describes.flawless
  refine ⟨describes.distinct, fun other => ?_, fun group empty => ?_, fun calls => ?_⟩
  · have leaf := kind_of_stepFlaw? flawless other
    rwa [Bool.not_eq_false', List.isEmpty_iff] at leaf
  · rw [group] at flawless
    have filled := hasSubSteps_of_stepFlaw? flawless
    simp [empty] at filled
  · rw [calls] at flawless
    exact action_of_stepFlaw? flawless

/-- Checking has made sure of every step of an accepted definition, at every depth. -/
theorem Draft.validate_accepted {draft : Draft} {definition : Definition}
    (valid : draft.validate = .ok definition) : ∀ step ∈ definition.allSteps, step.Accepted := by
  intro step member
  obtain ⟨origin, -, describes⟩ := (Draft.validate_iff.mp valid).origin step member
  exact describes.accepted

/-- Checking has made sure of every step of a definition that was read from a text. -/
theorem Definition.ofText_accepted {text : String} {definition : Definition}
    (accepted : Definition.ofText text = .ok definition) :
    ∀ step ∈ definition.allSteps, step.Accepted := by
  obtain ⟨document, -, accepted⟩ := ok_of_bind accepted
  obtain ⟨draft, -, accepted⟩ := ok_of_bind accepted
  exact Draft.validate_accepted (ok_of_mapError accepted)

end Workflow
