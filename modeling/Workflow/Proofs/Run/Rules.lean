import Workflow.Proofs.Execution.Obedience
import Workflow.Proofs.Run.Course
import Workflow.Proofs.Run.Order

/-!
# Runs that obey rules

A run obeys rules if the processes of all its steps do. Then every turn of the run keeps whatever
facts the rules keep, and every failure among its results is one that the rules allow.
-/
namespace Workflow

/-- A failed result has the words of an error that the rules allow. -/
def Rules.Explain (rules : Rules) (result : StepResult) : Prop :=
  ∀ text, result.error = some text → ∃ error, rules.allows (.error error) ∧ text = error.message

/-- The result of an outcome that rules allow is explained by them. -/
theorem Rules.explain_result {rules : Rules} {outcome : Outcome} (allowed : rules.allows outcome)
    (context : Context) (phase : Phase) (step : Step) :
    rules.Explain (Progress.result context phase step outcome) := by
  intro text failed
  rcases outcome with error | _ | output
  · exact ⟨error, allowed, (Option.some.inj failed).symm⟩
  · cases failed
  · cases failed

/-- Every step of a definition obeys rules in every context of an execution. -/
def Definition.Obeys (definition : Definition) (rules : Rules) (setup : Setup)
    (execution : String) : Prop :=
  ∀ phase, ∀ step ∈ definition.listed phase, ∀ context, context.execution = execution →
    (step.process setup context).Obeys rules

/-- What has been done belongs to an execution, and its failures are allowed. -/
structure Progress.Obeys (progress : Progress) (rules : Rules) (execution : String) : Prop where
  own : progress.context.execution = execution
  explained : ∀ result ∈ progress.results, rules.Explain result

/-- An outcome that rules allow may be recorded. -/
theorem Progress.Obeys.record {progress : Progress} {rules : Rules} {execution : String}
    (obeys : progress.Obeys rules execution) {outcome : Outcome} (allowed : rules.allows outcome)
    (phase : Phase) (step : Step) :
    (progress.record phase step outcome).Obeys rules execution := by
  refine ⟨by rw [execution_record, obeys.own], fun result member => ?_⟩
  rcases List.mem_append.mp member with earlier | new
  · exact obeys.explained result earlier
  · obtain rfl := List.mem_singleton.mp new
    exact Rules.explain_result allowed _ phase step

/-- The seats that are held while a phase waits. -/
def PhaseState.seats : PhaseState → List Seat
  | .waiting _ _ activity _ => activity.seats
  | .over _ => []

/-- The seats that are held while a run waits. -/
def RunState.seats : RunState → List Seat
  | .waiting run => run.activity.seats
  | .over _ => []

/-- Where a phase has got to obeys rules. -/
inductive PhaseState.Obeys (rules : Rules) (execution : String) (listed : List Step) :
    PhaseState → Prop where
  | waiting {progress : Progress} {activity : Activity} {rest : List Step} (step : Step)
      (done : progress.Obeys rules execution) (obeys : activity.Obeys rules)
      (remain : rest ⊆ listed) :
      Obeys rules execution listed (.waiting progress step activity rest)
  | ended {progress : Progress} (done : progress.Obeys rules execution) :
      Obeys rules execution listed (.over progress)

/-- Where a run of a definition has got to obeys rules. -/
inductive RunState.Obeys (rules : Rules) (definition : Definition) (execution : String) :
    RunState → Prop where
  | waiting {run : Run} (same : run.definition = definition)
      (done : run.progress.Obeys rules execution) (obeys : run.activity.Obeys rules)
      (remain : run.rest ⊆ definition.listed run.phase) :
      Obeys rules definition execution (.waiting run)
  | ended {report : Report} (own : report.execution = execution)
      (explained : ∀ result ∈ report.steps, rules.Explain result) :
      Obeys rules definition execution (.over report)

namespace Run

variable {rules : Rules} {facts : List Seat → Environment → Prop} {setup : Setup}
  {definition : Definition} {execution : String}

/-- The steps of a phase keep the facts until one waits or the phase is over. -/
theorem startSteps_obeys (keeps : rules.Keeps facts)
    (conduct : definition.Obeys rules setup execution)
    (phase : Phase) {steps : List Step} (listed : steps ⊆ definition.listed phase)
    (environment : Environment) {progress : Progress} (done : progress.Obeys rules execution)
    {others : List Seat} (known : facts others environment) :
    (startSteps setup phase environment progress steps).2.Obeys rules execution
        (definition.listed phase) ∧
      facts ((startSteps setup phase environment progress steps).2.seats ++ others)
        (startSteps setup phase environment progress steps).1 := by
  induction steps generalizing environment progress with
  | nil => exact ⟨.ended done, known⟩
  | cons step rest ih =>
    obtain ⟨obeys, started⟩ := (conduct phase step (listed List.mem_cons_self) progress.context
      done.own).start keeps environment others known
    have remain : rest ⊆ definition.listed phase :=
      fun _ member => listed (List.mem_cons_of_mem _ member)
    rw [startSteps]
    generalize (step.process setup progress.context).start environment = result at obeys started ⊢
    obtain ⟨environment, activity⟩ := result
    cases activity with
    | ended outcome =>
      cases obeys with
      | ended allowed =>
        have recorded := done.record allowed phase step
        cases outcome with
        | ok output => exact ih remain environment recorded started
        | error error => exact ⟨.ended recorded, started⟩
    | calling | seated | awaiting | together => exact ⟨.waiting step done obeys remain, started⟩

/-- The end of a run keeps the facts if the rules tolerate a warning about a failure. -/
theorem finish_obeys (keeps : rules.Keeps facts)
    (tolerated : ∀ execution workflow step error,
      rules.tolerates (.runFailed execution workflow step error))
    (environment : Environment) {progress : Progress} (done : progress.Obeys rules execution)
    {others : List Seat} (known : facts others environment) :
    (finish environment progress).2.Obeys rules definition execution ∧
      facts ((finish environment progress).2.seats ++ others) (finish environment progress).1 := by
  refine ⟨.ended done.own done.explained, keeps.quiet ?_ (Environment.quiet_publish _ _)⟩
  split
  · exact keeps.warn _ known (tolerated _ _ _ _)
  · exact known

/-- What follows a phase keeps the facts. -/
theorem phase_obeys {phase : Phase} {later : List Phase} {result : Environment × PhaseState}
    {others : List Seat}
    (obeys : result.2.Obeys rules execution (definition.listed phase))
    (known : facts (result.2.seats ++ others) result.1)
    (goesOn : ∀ {progress : Progress}, progress.Obeys rules execution →
      facts others result.1 →
      (startPhases setup definition result.1 progress later).2.Obeys rules definition execution ∧
        facts ((startPhases setup definition result.1 progress later).2.seats ++ others)
          (startPhases setup definition result.1 progress later).1) :
    let state := match result.2 with
      | .over progress => startPhases setup definition result.1 progress later
      | .waiting progress step activity rest => (result.1, .waiting
          { definition, progress, phase, step, activity, rest, later })
    state.2.Obeys rules definition execution ∧ facts (state.2.seats ++ others) state.1 := by
  obtain ⟨environment, state⟩ := result
  cases obeys with
  | waiting step done obeys remain => exact ⟨.waiting rfl done obeys remain, known⟩
  | ended done => exact goesOn done known

/-- The phases of a run keep the facts until a step waits or the run is over. -/
theorem startPhases_obeys (keeps : rules.Keeps facts)
    (tolerated : ∀ execution workflow step error,
      rules.tolerates (.runFailed execution workflow step error))
    (conduct : definition.Obeys rules setup execution) (phases : List Phase)
    (environment : Environment) {progress : Progress} (done : progress.Obeys rules execution)
    {others : List Seat} (known : facts others environment) :
    (startPhases setup definition environment progress phases).2.Obeys rules definition
        execution ∧
      facts ((startPhases setup definition environment progress phases).2.seats ++ others)
        (startPhases setup definition environment progress phases).1 := by
  induction phases generalizing environment progress with
  | nil => exact finish_obeys keeps tolerated environment done known
  | cons phase later ih =>
    obtain ⟨obeys, started⟩ := startSteps_obeys keeps conduct phase
      (progress.stepsOf_listed definition phase) environment done known
    have goesOn := phase_obeys obeys started fun done known => ih _ done known
    rw [startPhases]
    generalize startSteps setup phase environment progress
      (progress.stepsOf definition phase) = result at goesOn ⊢
    obtain ⟨environment, state⟩ := result
    cases state <;> exact goesOn

/-- A run obeys the rules from its beginning. -/
theorem start_obeys (keeps : rules.Keeps facts)
    (tolerated : ∀ execution workflow step error,
      rules.tolerates (.runFailed execution workflow step error))
    (conduct : definition.Obeys rules setup execution) (trigger : Value)
    (environment : Environment) (others : List Seat) (known : facts others environment) :
    (start setup definition execution trigger environment).2.Obeys rules definition execution ∧
      facts ((start setup definition execution trigger environment).2.seats ++ others)
        (start setup definition execution trigger environment).1 :=
  startPhases_obeys keeps tolerated conduct Phase.all _ ⟨rfl, by simp [Progress.start]⟩
    (keeps.quiet known (environment.quiet_publish _))

/-- A run that goes on obeys the rules. -/
theorem resume_obeys (keeps : rules.Keeps facts)
    (tolerated : ∀ execution workflow step error,
      rules.tolerates (.runFailed execution workflow step error))
    (conduct : definition.Obeys rules setup execution) {run : Run} (environment : Environment)
    (obeys : (RunState.waiting run).Obeys rules definition execution) (others : List Seat)
    (known : facts (run.activity.seats ++ others) environment) :
    (run.resume setup environment).2.Obeys rules definition execution ∧
      facts ((run.resume setup environment).2.seats ++ others)
        (run.resume setup environment).1 := by
  cases obeys with
  | waiting same done obeys remain =>
    subst same
    obtain ⟨turned, resumed⟩ := obeys.resume keeps environment others known
    rw [resume]
    generalize run.activity.resume environment = result at turned resumed ⊢
    obtain ⟨environment, activity⟩ := result
    have goesOn : ∀ {environment : Environment} {progress : Progress},
        progress.Obeys rules execution → facts others environment →
        (startPhases setup run.definition environment progress run.later).2.Obeys rules
            run.definition execution ∧
          facts
            ((startPhases setup run.definition environment progress run.later).2.seats ++ others)
            (startPhases setup run.definition environment progress run.later).1 :=
      fun done known => startPhases_obeys keeps tolerated conduct run.later _ done known
    cases activity with
    | ended outcome =>
      cases turned with
      | ended allowed =>
        have recorded := done.record allowed run.phase run.step
        cases outcome with
        | ok output =>
          obtain ⟨obeys, started⟩ := startSteps_obeys keeps conduct run.phase remain environment
            recorded resumed
          have further := phase_obeys obeys started fun done known => goesOn done known
          simp only [goOn]
          generalize startSteps setup run.phase environment _ run.rest = result at further ⊢
          obtain ⟨environment, state⟩ := result
          cases state <;> exact further
        | error error => exact goesOn recorded resumed
    | calling | seated | awaiting | together => exact ⟨.waiting rfl done turned remain, resumed⟩

end Run

end Workflow
