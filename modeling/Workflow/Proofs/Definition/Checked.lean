import Workflow.Proofs.Definition.Checks
import Workflow.Proofs.Trimming

/-!
# Steps and the drafts they come from

`StepDraft.Describes` says field by field which step a draft describes and what is checked about
it, and `StepDraft.validate_iff` that checking does just that. A step at any depth comes from a
draft at some depth (`StepDraft.Describes.origin`), so what the check of one step ensures holds of
all of them. A draft that is written for a checked step passes the check again and describes the
same step (`StepDraft.Describes.again`).
-/
namespace Workflow

/-- What a draft says about the step that it describes, and what is checked about the step. -/
structure StepDraft.Describes (draft : StepDraft) (step : Step) : Prop where
  name : step.name = Text.trimmed draft.name
  kind : step.kind = draft.kind
  action : step.action = unlessBlank draft.action
  input : step.input = draft.input
  output : step.output = unlessBlank draft.output
  condition : step.condition = unlessBlank draft.condition
  timeout : step.timeout = draft.timeout
  fallback : step.fallback = draft.fallback.map .ofValue
  loopOver : step.loopOver = unlessBlank draft.loopOver
  /-- The steps inside it are described by the drafts inside the draft. -/
  steps : validateSteps draft.steps = .ok step.steps
  /-- It has a name. -/
  named : step.name.isEmpty = false
  flawless : stepFlaw? step.kind step.action step.output step.loopOver step.timeout
    (!step.steps.isEmpty) = none
  /-- The steps inside it have distinct names. -/
  distinct : (step.steps.map Step.name).Nodup

/-- Steps of different names pass the check for repeated names. -/
theorem ensureDistinct_of_nodup {steps : List Step} (scope : StepScope)
    (distinct : (steps.map Step.name).Nodup) : ensureDistinct scope steps = .ok () := by
  have none : firstRepeated? [] (steps.map Step.name) = none :=
    (firstRepeated?_eq_none [] _).mpr ⟨distinct, fun _ _ => List.not_mem_nil⟩
  rw [ensureDistinct, none]

/-- There are steps exactly if there are drafts that describe them. -/
theorem isEmpty_validateSteps {drafts : List StepDraft} {steps : List Step}
    (valid : validateSteps drafts = .ok steps) : steps.isEmpty = drafts.isEmpty := by
  have length := length_validateSteps valid
  cases drafts <;> cases steps <;> simp at length ⊢

/-- Checking a draft gives the step that it describes. -/
theorem StepDraft.validate_iff {draft : StepDraft} {step : Step} :
    draft.validate = .ok step ↔ draft.Describes step := by
  obtain ⟨name, kind, action, output, condition, timeout, loopOver, fallback, input, drafts⟩ :=
    draft
  constructor
  · intro valid
    rw [StepDraft.validate] at valid
    obtain ⟨named, valid⟩ := ok_of_guard valid
    dsimp only at valid
    split at valid
    · obtain ⟨_, impossible, -⟩ := ok_of_bind valid
      cases impossible
    next flawed =>
      have flawless := Option.eq_none_iff_forall_ne_some.mpr flawed
      obtain ⟨steps, stepsValid, valid⟩ := ok_of_bind valid
      obtain ⟨⟨⟩, distinct, done⟩ := ok_of_bind valid
      cases done
      -- Flaws are looked for before the steps inside are checked, so the drafts are counted there.
      rw [← isEmpty_validateSteps stepsValid] at flawless
      exact {
        name := rfl, kind := rfl, action := rfl, input := rfl, output := rfl, condition := rfl
        timeout := rfl, fallback := rfl, loopOver := rfl
        steps := stepsValid
        named := by simpa using named
        flawless := flawless
        distinct := ensureDistinct_ok distinct }
  · intro describes
    obtain ⟨name', kind', action', input', output', condition', timeout', fallback', loopOver',
      steps⟩ := step
    obtain ⟨sameName, sameKind, sameAction, sameInput, sameOutput, sameCondition, sameTimeout,
      sameFallback, sameLoop, stepsValid, named, flawless, distinct⟩ := describes
    dsimp only at *
    subst sameName sameKind sameAction sameInput sameOutput sameCondition sameTimeout
    subst sameFallback sameLoop
    rw [isEmpty_validateSteps stepsValid] at flawless
    rw [StepDraft.validate]
    simp only [named, flawless, stepsValid, ensureDistinct_of_nodup _ distinct, bind, Except.bind,
      pure, Except.pure, Bool.false_eq_true, if_false]

/-! ## Where steps come from -/

mutual

/-- A draft and the drafts inside it, each before those inside it. -/
def StepDraft.descendants : StepDraft → List StepDraft
  | { name, kind, action, output, condition, timeout, loopOver, fallback, input, steps } =>
    { name, kind, action, output, condition, timeout, loopOver, fallback, input, steps } ::
      draftDescendantsOf steps

/-- Drafts and the drafts inside them, each before those inside it. -/
def draftDescendantsOf : List StepDraft → List StepDraft
  | [] => []
  | draft :: rest => draft.descendants ++ draftDescendantsOf rest

end

/-- The descendants of a draft are itself and those of the drafts inside it. -/
theorem StepDraft.descendants_eq (draft : StepDraft) :
    draft.descendants = draft :: draftDescendantsOf draft.steps := by
  cases draft
  rw [StepDraft.descendants]

mutual

/-- A checked step and every step inside it come from the draft and the drafts inside it. -/
theorem StepDraft.Describes.origin {draft : StepDraft} {step : Step}
    (describes : draft.Describes step) :
    ∀ inner ∈ step.descendants, ∃ origin ∈ draft.descendants, origin.Describes inner := by
  obtain ⟨name, kind, action, output, condition, timeout, loopOver, fallback, input, drafts⟩ :=
    draft
  intro inner member
  rw [Step.descendants_eq] at member
  rw [StepDraft.descendants]
  rcases List.mem_cons.mp member with rfl | deeper
  · exact ⟨_, List.mem_cons_self, describes⟩
  · obtain ⟨origin, among, fits⟩ := origin_of_validateSteps describes.steps inner deeper
    exact ⟨origin, List.mem_cons_of_mem _ among, fits⟩

/-- Checked steps and every step inside them come from the drafts and the drafts inside them. -/
theorem origin_of_validateSteps {drafts : List StepDraft} {steps : List Step}
    (valid : validateSteps drafts = .ok steps) :
    ∀ inner ∈ descendantsOf steps, ∃ origin ∈ draftDescendantsOf drafts,
      origin.Describes inner := by
  cases drafts with
  | nil =>
    cases valid
    simp [descendantsOf]
  | cons draft rest =>
    obtain ⟨step, later, stepValid, restValid, rfl⟩ := validateSteps_cons valid
    intro inner member
    rw [descendantsOf] at member
    rw [draftDescendantsOf]
    rcases List.mem_append.mp member with first | second
    · obtain ⟨origin, among, fits⟩ :=
        (StepDraft.validate_iff.mp stepValid).origin inner first
      exact ⟨origin, List.mem_append_left _ among, fits⟩
    · obtain ⟨origin, among, fits⟩ := origin_of_validateSteps restValid inner second
      exact ⟨origin, List.mem_append_right _ among, fits⟩

end

/-! ## The draft of a checked step -/

/-- What is left of an optional text unless it is blank is not blank. -/
theorem unlessBlank_unlessBlank (text : Option String) :
    unlessBlank (unlessBlank text) = unlessBlank text := by
  cases text with
  | none => rfl
  | some word =>
    by_cases blank : Text.isBlankText word
    · simp [unlessBlank, Option.filter, blank]
    · simp [unlessBlank, Option.filter, blank]

/-- A fallback that was read from a value is read from its value again. -/
theorem fallback_again (written : Option Value) :
    ((written.map Fallback.ofValue).map Fallback.toValue).map Fallback.ofValue =
      written.map Fallback.ofValue := by
  cases written with
  | none => rfl
  | some value => simp [Fallback.toValue_ofValue]

mutual

/-- The draft of a checked step describes the step. -/
theorem StepDraft.Describes.again {draft : StepDraft} {step : Step}
    (describes : draft.Describes step) : step.draft.Describes step := by
  obtain ⟨name, kind, action, output, condition, timeout, loopOver, fallback, input, drafts⟩ :=
    draft
  have inside := validateSteps_draftsOf describes.steps
  have sameName : step.name = Text.trimmed step.name := by
    rw [describes.name, Text.trimmed_trimmed]
  have sameAction : step.action = unlessBlank step.action := by
    rw [describes.action, unlessBlank_unlessBlank]
  have sameOutput : step.output = unlessBlank step.output := by
    rw [describes.output, unlessBlank_unlessBlank]
  have sameCondition : step.condition = unlessBlank step.condition := by
    rw [describes.condition, unlessBlank_unlessBlank]
  have sameFallback :
      step.fallback = (step.fallback.map Fallback.toValue).map Fallback.ofValue := by
    rw [describes.fallback, fallback_again]
  have sameLoop : step.loopOver = unlessBlank step.loopOver := by
    rw [describes.loopOver, unlessBlank_unlessBlank]
  have named := describes.named
  have flawless := describes.flawless
  have distinct := describes.distinct
  cases step
  exact {
    name := sameName, kind := rfl, action := sameAction, input := rfl, output := sameOutput
    condition := sameCondition, timeout := rfl, fallback := sameFallback, loopOver := sameLoop
    steps := inside
    named := named
    flawless := flawless
    distinct := distinct }

/-- Checking the drafts of checked steps gives the steps. -/
theorem validateSteps_draftsOf {drafts : List StepDraft} {steps : List Step}
    (valid : validateSteps drafts = .ok steps) : validateSteps (draftsOf steps) = .ok steps := by
  cases drafts with
  | nil =>
    cases valid
    rfl
  | cons draft rest =>
    obtain ⟨step, later, stepValid, restValid, rfl⟩ := validateSteps_cons valid
    have first := StepDraft.validate_iff.mpr (StepDraft.validate_iff.mp stepValid).again
    have others := validateSteps_draftsOf restValid
    rw [draftsOf, validateSteps, first, others]
    rfl

end

/-! ## Whole definitions -/

/-- What a draft says about the definition that it describes, and what is checked about it. -/
structure Draft.Describes (draft : Draft) (definition : Definition) : Prop where
  name : definition.name = Text.trimmed draft.name
  description : definition.description = draft.description
  version : definition.version = draft.version
  trigger : definition.trigger = draft.trigger
  steps : validateSteps draft.steps = .ok definition.steps
  onComplete : validateSteps draft.onComplete = .ok definition.onComplete
  onError : validateSteps draft.onError = .ok definition.onError
  /-- It has a name. -/
  named : definition.name.isEmpty = false
  /-- It has a main step. -/
  filled : definition.steps.isEmpty = false
  /-- The steps of each list have distinct names. -/
  distinct : ∀ list ∈ [definition.steps, definition.onComplete, definition.onError],
    (list.map Step.name).Nodup

/-- Checking a draft gives the definition that it describes. -/
theorem Draft.validate_iff {draft : Draft} {definition : Definition} :
    draft.validate = .ok definition ↔ draft.Describes definition := by
  obtain ⟨name, description, version, trigger, steps, onComplete, onError⟩ := draft
  constructor
  · intro valid
    rw [Draft.validate] at valid
    obtain ⟨named, valid⟩ := ok_of_guard valid
    obtain ⟨filled, valid⟩ := ok_of_guard valid
    obtain ⟨main, mainValid, valid⟩ := ok_of_bind valid
    obtain ⟨ending, endingValid, valid⟩ := ok_of_bind valid
    obtain ⟨failure, failureValid, valid⟩ := ok_of_bind valid
    obtain ⟨_, mainDistinct, valid⟩ := ok_of_bind valid
    obtain ⟨_, endingDistinct, valid⟩ := ok_of_bind valid
    obtain ⟨_, failureDistinct, done⟩ := ok_of_bind valid
    cases done
    exact {
      name := rfl, description := rfl, version := rfl, trigger := rfl
      steps := mainValid
      onComplete := endingValid
      onError := failureValid
      named := by simpa using named
      filled := by
        rw [isEmpty_validateSteps mainValid]
        simpa using filled
      distinct := by
        simp [ensureDistinct_ok mainDistinct, ensureDistinct_ok endingDistinct,
          ensureDistinct_ok failureDistinct] }
  · intro describes
    obtain ⟨name', description', version', trigger', main, ending, failure⟩ := definition
    obtain ⟨sameName, sameDescription, sameVersion, sameTrigger, mainValid, endingValid,
      failureValid, named, filled, distinct⟩ := describes
    dsimp only at *
    subst sameName sameDescription sameVersion sameTrigger
    have mainDistinct :=
      ensureDistinct_of_nodup (.main (Text.trimmed name)) (distinct main (by simp))
    have endingDistinct :=
      ensureDistinct_of_nodup (.onComplete (Text.trimmed name)) (distinct ending (by simp))
    have failureDistinct :=
      ensureDistinct_of_nodup (.onError (Text.trimmed name)) (distinct failure (by simp))
    rw [isEmpty_validateSteps mainValid] at filled
    rw [Draft.validate]
    simp only [named, filled, mainValid, endingValid, failureValid, mainDistinct, endingDistinct,
      failureDistinct, bind, Except.bind, pure, Except.pure, Bool.false_eq_true, if_false]

/-- All drafts of steps at every depth, in the order of the steps that they describe. -/
def Draft.allSteps (draft : Draft) : List StepDraft :=
  draftDescendantsOf (draft.steps ++ draft.onError ++ draft.onComplete)

/-- The descendants of two lists are those of the first, then those of the second. -/
theorem draftDescendantsOf_append (first second : List StepDraft) :
    draftDescendantsOf (first ++ second) =
      draftDescendantsOf first ++ draftDescendantsOf second := by
  induction first with
  | nil => rfl
  | cons draft rest ih => rw [List.cons_append, draftDescendantsOf, ih, draftDescendantsOf,
      List.append_assoc]

/-- Every step of a checked definition, at every depth, comes from a draft. -/
theorem Draft.Describes.origin {draft : Draft} {definition : Definition}
    (describes : draft.Describes definition) :
    ∀ inner ∈ definition.allSteps, ∃ origin ∈ draft.allSteps, origin.Describes inner := by
  intro inner member
  simp only [Draft.allSteps, draftDescendantsOf_append, List.mem_append]
  rcases Definition.mem_allSteps.mp member with main | failure | ending
  · obtain ⟨origin, among, fits⟩ := origin_of_validateSteps describes.steps inner main
    exact ⟨origin, .inl (.inl among), fits⟩
  · obtain ⟨origin, among, fits⟩ := origin_of_validateSteps describes.onError inner failure
    exact ⟨origin, .inl (.inr among), fits⟩
  · obtain ⟨origin, among, fits⟩ := origin_of_validateSteps describes.onComplete inner ending
    exact ⟨origin, .inr among, fits⟩

/-- The draft of a checked definition describes the definition. -/
theorem Draft.Describes.again {draft : Draft} {definition : Definition}
    (describes : draft.Describes definition) : definition.draft.Describes definition where
  name := by
    change definition.name = Text.trimmed definition.name
    rw [describes.name, Text.trimmed_trimmed]
  description := rfl
  version := rfl
  trigger := rfl
  steps := validateSteps_draftsOf describes.steps
  onComplete := validateSteps_draftsOf describes.onComplete
  onError := validateSteps_draftsOf describes.onError
  named := describes.named
  filled := describes.filled
  distinct := describes.distinct

end Workflow
