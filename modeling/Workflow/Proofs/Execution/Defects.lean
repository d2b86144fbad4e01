import Workflow.Proofs.Definition.Accepted
import Workflow.Proofs.Run.Rules

/-!
# Definitions without defects

A definition is defective if one of its steps lacks something without which it cannot run: an action
to call, a registered action, or the steps of a group. A definition that has passed the checks and
refers only to registered actions obeys rules under which no step ends with the error of a defect,
at whatever depth and whatever the engine answers.

A result keeps only the words of an error. The error of a defect differs in words from every other
one, so the words tell that there was none.
-/
namespace Workflow

/-! ## The words of errors -/

namespace Text

/-- A text that is continued begins as before. -/
theorem head?_append {first : String} {character : Char}
    (begins : first.toList.head? = some character) (last : String) :
    (first ++ last).toList.head? = some character := by
  rw [String.toList_append, List.head?_append, begins, Option.some_or]

/-- A text that is put in front of another one leaves its ending. -/
theorem suffix_append (first : String) {last : String} {ending : List Char}
    (ends : ending <:+ last.toList) : ending <:+ (first ++ last).toList := by
  rw [String.toList_append]
  exact ends.trans (List.suffix_append _ _)

end Text

namespace StepError

/-- The first character of an error in words. -/
def initial : StepError → Char
  | .actionFailed .. => 'ア'
  | .unknownAction _ => '未'
  | .timedOut .. => 'タ'
  | .humanRejected .. => 'h'
  | .noSubSteps _ => 'p'
  | .missingAction _ | .humanTimedOut _ | .humanAborted _ | .notIterable .. | .noExecutor _ => 'ス'

/-- The message of an error begins with a character that tells its kind. -/
theorem head?_message (error : StepError) :
    error.message.toList.head? = some error.initial := by
  cases error <;> dsimp only [message, initial]
  case unknownAction | humanRejected => exact Text.head?_append (by decide +kernel) _
  case missingAction | humanTimedOut | humanAborted | noSubSteps | noExecutor =>
    exact Text.head?_append (Text.head?_append (by decide +kernel) _) _
  case actionFailed =>
    exact Text.head?_append (Text.head?_append (Text.head?_append (by decide +kernel) _) _) _
  case timedOut | notIterable =>
    exact Text.head?_append (Text.head?_append (Text.head?_append (Text.head?_append
      (by decide +kernel) _) _) _) _

/-- How an error in words ends if it begins with the word for a step. -/
def ending : StepError → String
  | .missingAction _ => "れていません"
  | .humanTimedOut _ => "ウトしました"
  | .humanAborted _ => "棄されました"
  | .notIterable .. => "はありません"
  | .noExecutor _ => "がありません"
  | _ => ""

/-- The message of an error ends in a way that tells its kind. -/
theorem ending_suffix (error : StepError) : error.ending.toList <:+ error.message.toList := by
  cases error <;> dsimp only [message, ending]
  case missingAction | humanTimedOut | humanAborted | notIterable | noExecutor =>
    exact Text.suffix_append _ (by decide +kernel)
  all_goals exact List.nil_suffix

/-- The error of a defect differs in words from every other error. -/
theorem message_ne_of_defect {defect other : StepError} (isDefect : defect.isDefect = true)
    (common : other.isDefect = false) : defect.message ≠ other.message := by
  intro same
  have initials : defect.initial = other.initial :=
    Option.some.inj (defect.head?_message.symm.trans (same ▸ other.head?_message))
  have endings := List.suffix_or_suffix_of_suffix defect.ending_suffix (same ▸ other.ending_suffix)
  cases defect with
  | unknownAction | noSubSteps =>
    cases other with
    | missingAction | unknownAction | noSubSteps | noExecutor => cases common
    | actionFailed | timedOut | humanRejected | humanTimedOut | humanAborted | notIterable =>
      simp [initial] at initials
  | missingAction | noExecutor =>
    cases other with
    | missingAction | unknownAction | noSubSteps | noExecutor => cases common
    | actionFailed | timedOut | humanRejected => simp [initial] at initials
    | humanTimedOut | humanAborted | notIterable =>
      -- Only the ends tell these words apart.
      simp only [ending] at endings
      exact absurd endings (by decide +kernel)
  | actionFailed | timedOut | humanRejected | humanTimedOut | humanAborted | notIterable =>
    cases isDefect

end StepError

/-! ## Rules without defects -/

/-- The outcome is not the error of a defect. -/
def Outcome.Sound (outcome : Outcome) : Prop :=
  ∀ error, outcome = .error error → error.isDefect = false

/-- The warning does not tell of the error of a defect. -/
def Warning.Sound (warning : Warning) : Prop :=
  ∀ group step error, warning = .subStepFailed group step error → error.isDefect = false

/-- The rules of steps that may rely on some actions and show no defect. -/
def Rules.sound (actions : String → Prop) : Rules where
  registered := actions
  asks _ := True
  tolerates := Warning.Sound
  allows := Outcome.Sound
  replaces _ _ _ _ _ same := by cases same

/-- Steps and groups of steps can run under the rules against defects. -/
theorem Rules.sound_liberal (actions : String → Prop) (execution : String) :
    (Rules.sound actions).Liberal execution where
  asks _ := trivial
  warnings _ other group step error same := absurd same (other group step error)
  values _ _ same := by cases same
  failures error common _ same := by
    cases same
    exact common
  skipped _ same := by cases same
  outputs _ _ same := by cases same
  subSteps _ _ _ allowed _ _ _ same := by
    cases same
    exact allowed _ rfl

/-- What has ended inside an activity, at every depth. -/
inductive Activity.Contains (outcome : Outcome) : Activity → Prop where
  | ended : Contains outcome (.ended outcome)
  | seated (seat : Seat) {body : Activity} (inside : body.Contains outcome) :
      Contains outcome (.seated seat body)
  | together {members : List Activity} (next : List Outcome → Process) {member : Activity}
      (within : member ∈ members) (inside : member.Contains outcome) :
      Contains outcome (.together members next)

/-- What obeys rules contains only outcomes that they allow. -/
theorem Activity.Obeys.allows {rules : Rules} {activity : Activity} (obeys : activity.Obeys rules)
    {outcome : Outcome} (contains : activity.Contains outcome) : rules.allows outcome := by
  induction contains with
  | ended =>
    cases obeys with
    | ended allowed => exact allowed
  | seated _ _ ih =>
    cases obeys with
    | seated _ inside => exact ih inside
  | together _ within _ ih =>
    cases obeys with
    | together each _ => exact ih (each _ within)

/-! ## Definitions -/

/-- A definition has passed the checks and refers only to actions that are registered. -/
structure Definition.Ready (definition : Definition) (actions : ActionRegistry) : Prop where
  accepted : ∀ step ∈ definition.allSteps, step.Accepted
  registered : ∀ step ∈ definition.allSteps, ∀ action, step.action = some action →
    actions.contains action

/-- A definition refers to an action. -/
def Definition.Uses (definition : Definition) (action : String) : Prop :=
  ∃ step ∈ definition.allSteps, step.action = some action

/-- The steps at every depth are those inside the listed ones. -/
theorem Definition.mem_allSteps_of_listed {definition : Definition} {phase : Phase} {step : Step}
    (listed : step ∈ definition.listed phase) {inner : Step} (inside : inner ∈ step.descendants) :
    inner ∈ definition.allSteps := by
  refine mem_allSteps.mpr ?_
  have among := mem_descendantsOf.mpr ⟨step, listed, inside⟩
  cases phase with
  | main => exact .inl among
  | onError => exact .inr (.inl among)
  | onComplete => exact .inr (.inr among)

/-- A definition that has passed the checks shows no defect as long as its actions are found. -/
theorem Definition.obeys_sound {definition : Definition}
    (accepted : ∀ step ∈ definition.allSteps, step.Accepted) {setup : Setup}
    (custom : setup.custom = []) (execution : String) :
    definition.Obeys (Rules.sound definition.Uses) setup execution := by
  intro phase step listed context own
  refine Step.process_obeys (Setup.obeys_of_plain custom _ context) (Rules.sound_liberal _ _) step
    fun inner inside => ?_
  have known := mem_allSteps_of_listed listed inside
  refine ⟨fun kind none => ?_, fun action named => .inl ⟨inner, known, named⟩, fun kind none => ?_⟩
  · exact absurd none ((accepted inner known).named kind)
  · exact absurd none ((accepted inner known).filled kind)

end Workflow
