import Workflow.Definition
import Workflow.Execution.Activity
import Workflow.Execution.Steps
import Workflow.Run.Report

/-!
# Runs

A run executes the main steps in order up to the first failure, then, if one failed, the steps that
follow a failure, and at last the steps that end every run; a failure ends the phase in which it
happens. Each step runs in the context that the earlier ones have left: a completed step stores its
exports and then its value under its name. The first failure of the run is its error.
-/
namespace Workflow

/-- What a run has done so far. -/
structure Progress where
  context : Context
  /-- What became of the steps. -/
  results : List StepResult
  /-- The first failure. -/
  error : Option RunError

namespace Progress

/-- Nothing has been done yet. -/
def start (context : Context) : Progress := ⟨context, [], none⟩

/-- The values that a completed step stores, in order. -/
def writes (step : Step) (output : Output) : List (String × Value) :=
  output.exports ++ step.output.toList.map (·, output.value)

/-- The result of a step in a context. -/
def result (context : Context) (phase : Phase) (step : Step) (outcome : Outcome) : StepResult :=
  let input := step.input.map (resolveInput context)
  match outcome with
  | .ok (some output) => ⟨step.name, phase, .completed, input, some output.value, none⟩
  | .ok none => ⟨step.name, phase, .skipped, none, none, none⟩
  | .error error =>
    let status := if error.isTimeout then .timeout else .failed
    ⟨step.name, phase, status, input, none, some error.message⟩

/-- The failure of a step. -/
def failure? (step : Step) : Outcome → Option RunError
  | .ok _ => none
  | .error error => some ⟨step.name, error.message⟩

/-- The context after a step. -/
def contextAfter (context : Context) (step : Step) : Outcome → Context
  | .ok (some output) => context.setOutputs (writes step output)
  | _ => context

/-- Take note of the outcome of a step. -/
def record (progress : Progress) (phase : Phase) (step : Step) (outcome : Outcome) : Progress where
  context := contextAfter progress.context step outcome
  results := progress.results ++ [result progress.context phase step outcome]
  error := progress.error <|> failure? step outcome

/-- The steps of a phase that are to run after what has been done. -/
def stepsOf (progress : Progress) (definition : Definition) : Phase → List Step
  | .main => definition.steps
  | .onError => if progress.error.isSome then definition.onError else []
  | .onComplete => definition.onComplete

/-- The report of a run that has done all its steps. -/
def report (progress : Progress) : Report where
  execution := progress.context.execution
  workflow := progress.context.workflow
  steps := progress.results
  output := progress.context.outputs
  error := progress.error

end Progress

/-- A run that waits for a step. -/
structure Run where
  definition : Definition
  /-- What has been done before the step. -/
  progress : Progress
  phase : Phase
  step : Step
  /-- What the step waits for. -/
  activity : Activity
  /-- The steps of the phase after it. -/
  rest : List Step
  /-- The phases after it. -/
  later : List Phase

/-- Where a run stands. -/
inductive RunState where
  | waiting (run : Run)
  | over (report : Report)

/-- Where the steps of a phase have got to. -/
inductive PhaseState where
  | waiting (progress : Progress) (step : Step) (activity : Activity) (rest : List Step)
  | over (progress : Progress)

namespace Run

/-- Run the steps of a phase until one waits or fails. -/
def startSteps (setup : Setup) (phase : Phase) (environment : Environment) (progress : Progress) :
    List Step → Environment × PhaseState
  | [] => (environment, .over progress)
  | step :: rest =>
    match (step.process setup progress.context).start environment with
    | (environment, .ended outcome) =>
      let progress := progress.record phase step outcome
      match outcome with
      | .ok _ => startSteps setup phase environment progress rest
      | .error _ => (environment, .over progress)
    | (environment, activity) => (environment, .waiting progress step activity rest)

/-- The end of a run: a failure gives a warning, and the end is announced. -/
def finish (environment : Environment) (progress : Progress) : Environment × RunState :=
  let report := progress.report
  let environment := match report.error with
    | some error =>
      environment.warn (.runFailed report.execution report.workflow error.step error.message)
    | none => environment
  (environment.publish (.runFinished report.execution report.workflow report.status), .over report)

/-- Run phases until a step waits. -/
def startPhases (setup : Setup) (definition : Definition) (environment : Environment)
    (progress : Progress) : List Phase → Environment × RunState
  | [] => finish environment progress
  | phase :: later =>
    match startSteps setup phase environment progress (progress.stepsOf definition phase) with
    | (environment, .over progress) => startPhases setup definition environment progress later
    | (environment, .waiting progress step activity rest) =>
      (environment, .waiting { definition, progress, phase, step, activity, rest, later })

/-- Begin a run. -/
def start (setup : Setup) (definition : Definition) (execution : String) (trigger : Value)
    (environment : Environment) : Environment × RunState :=
  let context := Context.start definition.name execution trigger
  startPhases setup definition (environment.publish (.runStarted execution definition.name))
    (.start context) Phase.all

/-- Go on with a run whose step has got further. -/
def goOn (setup : Setup) (run : Run) (environment : Environment) :
    Activity → Environment × RunState
  | .ended outcome =>
    let progress := run.progress.record run.phase run.step outcome
    let (environment, state) := match outcome with
      | .ok _ => startSteps setup run.phase environment progress run.rest
      | .error _ => (environment, .over progress)
    match state with
    | .over progress => startPhases setup run.definition environment progress run.later
    | .waiting progress step activity rest =>
      (environment, .waiting { run with progress, step, activity, rest })
  | activity => (environment, .waiting { run with activity })

/-- Go on with a run as far as possible. -/
def resume (setup : Setup) (run : Run) (environment : Environment) : Environment × RunState :=
  let (environment, activity) := run.activity.resume environment
  run.goOn setup environment activity

/-- Drop a run. -/
def drop (run : Run) (environment : Environment) : Environment := run.activity.drop environment

end Run

end Workflow
