import Mathlib.Data.List.Forall2
import Workflow.Proofs.Definition.Checked

/-!
# Which drafts are valid

`StepDraft.Valid` and `Draft.Valid` say which drafts describe a step and a definition, without
regard to the order in which things are checked or to what is put in order first. A draft passes the
check exactly if it is valid, and what comes of it has the shape of the draft (`Draft.Becomes`): the
same steps inside each other in the same order, with trimmed names and without blank texts, and
otherwise as they were written.
-/
namespace Workflow

/-! ## What is written -/

/-- An optional text is given and is not blank. -/
def IsGiven (text : Option String) : Prop :=
  ∃ word, text = some word ∧ Text.isBlankText word = false

/-- What is kept of an optional text is the text, unless it is blank. -/
def KeptUnlessBlank (written kept : Option String) : Prop :=
  ∀ word, kept = some word ↔ written = some word ∧ Text.isBlankText word = false

/-- The names of the steps that drafts describe. -/
def namesOf (drafts : List StepDraft) : List String :=
  drafts.map fun draft => Text.trimmed draft.name

/-- What must hold of a draft of a step, the drafts inside it aside. -/
structure StepDraft.Flawless (draft : StepDraft) : Prop where
  named : Text.trimmed draft.name ≠ ""
  /-- A step that calls an action names it. -/
  calls : draft.kind = .action → IsGiven draft.action
  /-- A group has steps inside it. -/
  filled : draft.kind = .parallel → draft.steps ≠ []
  /-- A group names no action. -/
  quiet : draft.kind = .parallel → ¬IsGiven draft.action
  /-- Only a group has steps inside it. -/
  leaf : draft.kind ≠ .parallel → draft.steps = []
  /-- Only a call of an action is repeated over a list. -/
  repeated : IsGiven draft.loopOver → draft.kind = .action
  timed : draft.timeout ≠ some 0
  /-- The result is not stored under a reserved name. -/
  stored : ∀ output, draft.output = some output → Text.isBlankText output = false →
    output ≠ triggerName ∧ output ≠ itemName

/-- A draft of a step is valid if it is flawless, if the drafts inside it are valid and if the names
of their steps are distinct. -/
inductive StepDraft.Valid : StepDraft → Prop where
  | step {draft : StepDraft} (flawless : draft.Flawless)
      (inside : ∀ inner ∈ draft.steps, inner.Valid) (distinct : (namesOf draft.steps).Nodup) :
      draft.Valid

/-- A list of drafts is valid if each of them is and if the names of their steps are distinct. -/
def ValidSteps (drafts : List StepDraft) : Prop :=
  (∀ draft ∈ drafts, draft.Valid) ∧ (namesOf drafts).Nodup

/-- A draft of a definition is valid if it has a name and a main step and its lists are valid. -/
structure Draft.Valid (draft : Draft) : Prop where
  named : Text.trimmed draft.name ≠ ""
  filled : draft.steps ≠ []
  steps : ValidSteps draft.steps
  onComplete : ValidSteps draft.onComplete
  onError : ValidSteps draft.onError

/-! ## What comes of it -/

/-- A step is what is written in a draft: its name is trimmed, its blank texts are absent, what it
falls back on is read, and the drafts inside it have become the steps inside it one by one. -/
inductive StepDraft.Becomes : StepDraft → Step → Prop where
  | step {draft : StepDraft} {step : Step}
      (name : step.name = Text.trimmed draft.name)
      (kind : step.kind = draft.kind)
      (action : KeptUnlessBlank draft.action step.action)
      (output : KeptUnlessBlank draft.output step.output)
      (condition : KeptUnlessBlank draft.condition step.condition)
      (loopOver : KeptUnlessBlank draft.loopOver step.loopOver)
      (input : step.input = draft.input)
      (timeout : step.timeout = draft.timeout)
      (fallback : step.fallback = draft.fallback.map .ofValue)
      (fallbackValue : step.fallback.map Fallback.toValue = draft.fallback)
      (steps : List.Forall₂ StepDraft.Becomes draft.steps step.steps) :
      draft.Becomes step

/-- A definition is what is written in a draft: its name is trimmed, the drafts of its lists have
become its steps one by one, and what describes it is as it was written. -/
structure Draft.Becomes (draft : Draft) (definition : Definition) : Prop where
  name : definition.name = Text.trimmed draft.name
  description : definition.description = draft.description
  version : definition.version = draft.version
  trigger : definition.trigger = draft.trigger
  steps : List.Forall₂ StepDraft.Becomes draft.steps definition.steps
  onComplete : List.Forall₂ StepDraft.Becomes draft.onComplete definition.onComplete
  onError : List.Forall₂ StepDraft.Becomes draft.onError definition.onError

/-! ## Single checks -/

/-- What is left of a text is the text, unless it is blank. -/
theorem unlessBlank_eq_some {text : Option String} {word : String} :
    unlessBlank text = some word ↔ text = some word ∧ Text.isBlankText word = false := by
  simp [unlessBlank, Option.filter_eq_some_iff]

/-- A text is kept as it is unless it is blank. -/
theorem keptUnlessBlank (text : Option String) : KeptUnlessBlank text (unlessBlank text) :=
  fun _ => unlessBlank_eq_some

/-- A text is given exactly if there is something unless it is blank. -/
theorem isGiven_iff {text : Option String} : IsGiven text ↔ unlessBlank text ≠ none := by
  rw [IsGiven, Option.ne_none_iff_exists']
  simp only [unlessBlank_eq_some]

/-- No flaw is found exactly if none of the single checks fails. -/
theorem stepFlaw?_eq_none_iff {kind : StepKind} {action output loopOver : Option String}
    {timeout : Option Nat} {hasSubSteps : Bool} :
    stepFlaw? kind action output loopOver timeout hasSubSteps = none ↔
      (kind = .action → action ≠ none) ∧ (kind = .parallel → hasSubSteps = true) ∧
        (kind = .parallel → action = none) ∧ (kind ≠ .parallel → hasSubSteps = false) ∧
        (loopOver ≠ none → kind = .action) ∧ timeout ≠ some 0 ∧
        ∀ word, output = some word → word ∉ reservedNames := by
  have stored : (output.filter (· ∈ reservedNames)).map StepFlaw.reservedOutput = none ↔
      ∀ word, output = some word → word ∉ reservedNames := by
    rw [Option.map_eq_none_iff, Option.filter_eq_none_iff]
    simp
  have passed (fails : Prop) [Decidable fails] (flaw : StepFlaw) (next : Option StepFlaw) :
      (if fails then some flaw else next) = none ↔ ¬fails ∧ next = none := by
    split <;> simp [*]
  simp only [stepFlaw?, passed, stored, not_and, Option.isNone_iff_eq_none,
    Option.isSome_iff_ne_none]
  cases kind <;> simp

/-- A draft is flawless exactly if it has a name and the check of what is written in it finds no
flaw. -/
theorem StepDraft.flawless_iff {draft : StepDraft} :
    draft.Flawless ↔ Text.trimmed draft.name ≠ "" ∧
      stepFlaw? draft.kind (unlessBlank draft.action) (unlessBlank draft.output)
        (unlessBlank draft.loopOver) draft.timeout (!draft.steps.isEmpty) = none := by
  have stored : (∀ word, unlessBlank draft.output = some word → word ∉ reservedNames) ↔
      ∀ output, draft.output = some output → Text.isBlankText output = false →
        output ≠ triggerName ∧ output ≠ itemName := by
    simp [unlessBlank_eq_some, reservedNames]
  have unwritten (text : Option String) : unlessBlank text = .none ↔ ¬IsGiven text := by
    rw [isGiven_iff, not_not]
  rw [stepFlaw?_eq_none_iff, stored, ← isGiven_iff, ← isGiven_iff, unwritten]
  have none (drafts : List StepDraft) : (!drafts.isEmpty) = false ↔ drafts = [] := by simp
  have some (drafts : List StepDraft) : (!drafts.isEmpty) = true ↔ drafts ≠ [] := by simp
  rw [none, some]
  exact ⟨fun ⟨named, calls, filled, quiet, leaf, repeated, timed, kept⟩ =>
      ⟨named, calls, filled, quiet, leaf, repeated, timed, kept⟩,
    fun ⟨named, calls, filled, quiet, leaf, repeated, timed, kept⟩ =>
      ⟨named, calls, filled, quiet, leaf, repeated, timed, kept⟩⟩

/-! ## Lists of drafts -/

/-- A list passes the check exactly if its drafts do, one by one. -/
theorem validateSteps_iff {drafts : List StepDraft} {steps : List Step} :
    validateSteps drafts = .ok steps ↔
      List.Forall₂ (fun draft step => draft.validate = .ok step) drafts steps := by
  induction drafts generalizing steps with
  | nil =>
    rw [validateSteps, List.forall₂_nil_left_iff]
    constructor
    · intro done
      cases done
      rfl
    · rintro rfl
      rfl
  | cons draft rest ih =>
    rw [validateSteps, List.forall₂_cons_left_iff]
    constructor
    · intro valid
      obtain ⟨step, first, valid⟩ := ok_of_bind valid
      obtain ⟨later, others, done⟩ := ok_of_bind valid
      cases done
      exact ⟨step, later, first, ih.mp others, rfl⟩
    · rintro ⟨step, later, first, others, rfl⟩
      rw [first, ih.mpr others]
      rfl

/-- The steps have the trimmed names of the drafts. -/
theorem names_of_validateSteps {drafts : List StepDraft} {steps : List Step}
    (valid : validateSteps drafts = .ok steps) : steps.map Step.name = namesOf drafts := by
  have names : List.Forall₂ (fun draft step => step.name = Text.trimmed draft.name) drafts steps :=
    (validateSteps_iff.mp valid).imp fun _ _ done => (StepDraft.validate_iff.mp done).name
  clear valid
  induction names with
  | nil => rfl
  | @cons draft step drafts steps first _ ih =>
    calc (step :: steps).map Step.name
        = Text.trimmed draft.name :: namesOf drafts := by rw [List.map_cons, first, ih]
      _ = namesOf (draft :: drafts) := rfl

/-- A list of which each draft passes the check passes it. -/
theorem validateSteps_of_each {drafts : List StepDraft}
    (each : ∀ draft ∈ drafts, ∃ step, draft.validate = .ok step) :
    ∃ steps, validateSteps drafts = .ok steps := by
  induction drafts with
  | nil => exact ⟨[], rfl⟩
  | cons draft rest ih =>
    obtain ⟨step, first⟩ := each draft List.mem_cons_self
    obtain ⟨steps, others⟩ := ih fun later member => each later (List.mem_cons_of_mem draft member)
    exact ⟨step :: steps, by rw [validateSteps, first, others]; rfl⟩

/-! ## Valid drafts pass -/

/-- A flawless draft passes the check if the drafts inside it do and their names are distinct. -/
theorem StepDraft.Flawless.validates {draft : StepDraft} (flawless : draft.Flawless)
    {steps : List Step} (inside : validateSteps draft.steps = .ok steps)
    (distinct : (namesOf draft.steps).Nodup) :
    ∃ step, draft.validate = .ok step := by
  obtain ⟨named, passed⟩ := StepDraft.flawless_iff.mp flawless
  refine ⟨{
    name := Text.trimmed draft.name, kind := draft.kind, action := unlessBlank draft.action
    input := draft.input, output := unlessBlank draft.output
    condition := unlessBlank draft.condition, timeout := draft.timeout
    fallback := draft.fallback.map .ofValue, loopOver := unlessBlank draft.loopOver, steps },
    StepDraft.validate_iff.mpr ?_⟩
  exact {
    name := rfl, kind := rfl, action := rfl, input := rfl, output := rfl, condition := rfl
    timeout := rfl, fallback := rfl, loopOver := rfl
    steps := inside
    named := by simpa using named
    flawless := by rwa [isEmpty_validateSteps inside]
    distinct := by rwa [names_of_validateSteps inside] }

/-- A valid draft passes the check. -/
theorem StepDraft.Valid.validates {draft : StepDraft} (valid : draft.Valid) :
    ∃ step, draft.validate = .ok step := by
  induction valid with
  | step flawless _ distinct ih =>
    obtain ⟨steps, inside⟩ := validateSteps_of_each ih
    exact flawless.validates inside distinct

/-- A valid list passes the check. -/
theorem ValidSteps.validates {drafts : List StepDraft} (valid : ValidSteps drafts) :
    ∃ steps, validateSteps drafts = .ok steps ∧ (steps.map Step.name).Nodup := by
  obtain ⟨steps, done⟩ := validateSteps_of_each fun draft member => (valid.1 draft member).validates
  exact ⟨steps, done, by rw [names_of_validateSteps done]; exact valid.2⟩

/-! ## Drafts that pass are valid -/

mutual

/-- A draft that passes the check is valid, and the step is what is written in it. -/
theorem StepDraft.becomes_of_validate {draft : StepDraft} {step : Step}
    (done : draft.validate = .ok step) : draft.Valid ∧ draft.Becomes step := by
  obtain ⟨name, kind, action, output, condition, timeout, loopOver, fallback, input, drafts⟩ :=
    draft
  have describes := StepDraft.validate_iff.mp done
  have named : Text.trimmed name ≠ "" := by
    have filled := describes.named
    rw [describes.name] at filled
    simpa using filled
  have flawless := describes.flawless
  rw [isEmpty_validateSteps describes.steps, describes.kind, describes.action, describes.output,
    describes.loopOver, describes.timeout] at flawless
  have distinct := describes.distinct
  rw [names_of_validateSteps describes.steps] at distinct
  have fallbackValue : step.fallback.map Fallback.toValue = fallback := by
    rw [describes.fallback, Option.map_map]
    simp [Function.comp_def, Fallback.toValue_ofValue]
  obtain ⟨valid, become⟩ := become_of_validateSteps describes.steps
  constructor
  · exact .step (StepDraft.flawless_iff.mpr ⟨named, flawless⟩) valid distinct
  · have action := keptUnlessBlank action
    have output := keptUnlessBlank output
    have condition := keptUnlessBlank condition
    have loopOver := keptUnlessBlank loopOver
    rw [← describes.action] at action
    rw [← describes.output] at output
    rw [← describes.condition] at condition
    rw [← describes.loopOver] at loopOver
    exact .step describes.name describes.kind action output condition loopOver describes.input
      describes.timeout describes.fallback fallbackValue become

/-- The drafts of a list that passes the check are valid, and the steps are what is written. -/
theorem become_of_validateSteps {drafts : List StepDraft} {steps : List Step}
    (done : validateSteps drafts = .ok steps) :
    (∀ draft ∈ drafts, draft.Valid) ∧ List.Forall₂ StepDraft.Becomes drafts steps := by
  cases drafts with
  | nil =>
    cases done
    exact ⟨fun _ impossible => absurd impossible List.not_mem_nil, .nil⟩
  | cons draft rest =>
    obtain ⟨step, later, stepDone, restDone, rfl⟩ := validateSteps_cons done
    obtain ⟨valid, becomes⟩ := StepDraft.becomes_of_validate stepDone
    obtain ⟨allValid, allBecome⟩ := become_of_validateSteps restDone
    exact ⟨List.forall_mem_cons.mpr ⟨valid, allValid⟩, .cons becomes allBecome⟩

end

/-- A list that passes the check, and whose names are distinct, is valid. -/
theorem validSteps_of_validateSteps {drafts : List StepDraft} {steps : List Step}
    (done : validateSteps drafts = .ok steps) (distinct : (steps.map Step.name).Nodup) :
    ValidSteps drafts :=
  ⟨(become_of_validateSteps done).1, by rwa [← names_of_validateSteps done]⟩

/-! ## Whole definitions -/

/-- A valid draft passes the check. -/
theorem Draft.Valid.validates {draft : Draft} (valid : draft.Valid) :
    ∃ definition, draft.validate = .ok definition := by
  obtain ⟨steps, stepsDone, stepsDistinct⟩ := valid.steps.validates
  obtain ⟨onComplete, onCompleteDone, onCompleteDistinct⟩ := valid.onComplete.validates
  obtain ⟨onError, onErrorDone, onErrorDistinct⟩ := valid.onError.validates
  refine ⟨{
    name := Text.trimmed draft.name, description := draft.description, version := draft.version
    trigger := draft.trigger, steps, onComplete, onError }, Draft.validate_iff.mpr ?_⟩
  exact {
    name := rfl, description := rfl, version := rfl, trigger := rfl
    steps := stepsDone
    onComplete := onCompleteDone
    onError := onErrorDone
    named := by simpa using valid.named
    filled := by
      rw [isEmpty_validateSteps stepsDone]
      simpa using valid.filled
    distinct := by simp [stepsDistinct, onCompleteDistinct, onErrorDistinct] }

/-- A draft that passes the check is valid, and the definition is what is written in it. -/
theorem Draft.becomes_of_validate {draft : Draft} {definition : Definition}
    (done : draft.validate = .ok definition) : draft.Valid ∧ draft.Becomes definition := by
  have describes := Draft.validate_iff.mp done
  constructor
  · exact {
      named := by
        have named := describes.named
        rw [describes.name] at named
        simpa using named
      filled := by
        have filled := describes.filled
        rw [isEmpty_validateSteps describes.steps] at filled
        simpa using filled
      steps := validSteps_of_validateSteps describes.steps (describes.distinct _ (by simp))
      onComplete :=
        validSteps_of_validateSteps describes.onComplete (describes.distinct _ (by simp))
      onError := validSteps_of_validateSteps describes.onError (describes.distinct _ (by simp)) }
  · exact {
      name := describes.name
      description := describes.description
      version := describes.version
      trigger := describes.trigger
      steps := (become_of_validateSteps describes.steps).2
      onComplete := (become_of_validateSteps describes.onComplete).2
      onError := (become_of_validateSteps describes.onError).2 }

/-- What comes of a draft when a document has been read: its definition, or that it is invalid. -/
def Draft.checked (draft : Draft) : Except ConfigError Definition :=
  draft.validate.mapError .invalid

/-- A definition comes of a draft exactly if the draft is valid, and then it is what is written in
the draft; a draft of which none comes is refused as invalid. -/
theorem Draft.checked_exactly (draft : Draft) :
    ((∃ definition, draft.checked = .ok definition) ↔ draft.Valid) ∧
      (∀ definition, draft.checked = .ok definition → draft.Becomes definition) ∧
      ∀ error, draft.checked = .error error → ∃ invalidity, error = .invalid invalidity := by
  refine ⟨⟨?_, ?_⟩, ?_, ?_⟩
  · rintro ⟨definition, done⟩
    exact (Draft.becomes_of_validate (ok_of_mapError done)).1
  · intro valid
    obtain ⟨definition, done⟩ := valid.validates
    exact ⟨definition, by rw [checked, done]; rfl⟩
  · intro definition done
    exact (Draft.becomes_of_validate (ok_of_mapError done)).2
  · intro error refused
    rw [checked] at refused
    cases outcome : draft.validate with
    | ok definition =>
      rw [outcome] at refused
      cases refused
    | error invalidity =>
      rw [outcome] at refused
      cases refused
      exact ⟨invalidity, rfl⟩

/-- A draft of which the description is blank. -/
def blanklyDescribed : Draft where
  name := "w"
  description := some " "
  version := none
  trigger := .manual
  steps := [⟨"s", .action, some "a", none, none, none, none, none, none, []⟩]
  onComplete := []
  onError := []

/-- Only texts of steps are dropped when they are blank: a blank description is kept. -/
theorem blank_description_kept :
    ∃ definition, blanklyDescribed.checked = .ok definition ∧
      definition.description = some " " ∧
      ¬KeptUnlessBlank blanklyDescribed.description definition.description := by
  refine ⟨⟨"w", some " ", none, .manual,
    [⟨"s", .action, some "a", none, none, none, none, none, none, []⟩], [], []⟩,
    by decide +kernel, rfl, fun kept => ?_⟩
  exact absurd ((kept " ").mp rfl).2 (by decide)

end Workflow
