import Workflow.Event

/-!
# Reports of runs

What became of the steps of a run, in the order in which they ran, the outputs at the end, and the
first failure.
-/
namespace Workflow

/-- The list of steps to which a step belongs. -/
inductive Phase where
  | main
  /-- The steps that follow a failure. -/
  | onError
  /-- The steps that end every run. -/
  | onComplete
deriving DecidableEq, Repr

namespace Phase

/-- The name of a phase. -/
def name : Phase → String
  | .main => "main"
  | .onError => "on_error"
  | .onComplete => "on_complete"

/-- The phases in the order in which they run. -/
def all : List Phase := [.main, .onError, .onComplete]

end Phase

/-- How a step ended. -/
inductive StepStatus where
  | completed
  /-- Its condition did not hold. -/
  | skipped
  | failed
  /-- It ran out of time. -/
  | timeout
deriving DecidableEq, Repr

namespace StepStatus

/-- The name of a status. -/
def name : StepStatus → String
  | .completed => "completed"
  | .skipped => "skipped"
  | .failed => "failed"
  | .timeout => "timeout"

/-- The step did not do its work. -/
def isFailure : StepStatus → Bool
  | .completed | .skipped => false
  | .failed | .timeout => true

end StepStatus

/-- What became of a step. -/
structure StepResult where
  step : String
  phase : Phase
  /-- How it ended. -/
  status : StepStatus
  /-- Its resolved input, if it declares one and ran. -/
  input : Option Value
  output : Option Value
  /-- Its error in words, if it failed. -/
  error : Option String
deriving DecidableEq, Repr

/-- The first failure of a run. -/
structure RunError where
  step : String
  message : String
deriving DecidableEq, Repr

/-- What became of a run. -/
structure Report where
  execution : String
  workflow : String
  /-- What became of the steps, in the order in which they ran. -/
  steps : List StepResult
  output : Value
  /-- The first failure. -/
  error : Option RunError
deriving DecidableEq, Repr

/-- A value, or null. -/
def orNull (value : Option Value) : Value := value.getD .null

/-- The result of a step as a value. -/
def StepResult.toValue (result : StepResult) : Value :=
  .ofFields [
    ("step_name", .text result.step),
    ("phase", .text result.phase.name),
    ("status", .text result.status.name),
    ("input", orNull result.input),
    ("output", orNull result.output),
    ("error", orNull (result.error.map .text))]

/-- A failure as a value. -/
def RunError.toValue (error : RunError) : Value :=
  .ofFields [("step", .text error.step), ("message", .text error.message)]

namespace Report

/-- How the run ended. -/
def status (report : Report) : RunStatus :=
  if report.error.isSome then .failed else .completed

/-- No step failed. -/
def isSuccess (report : Report) : Bool := report.status == .completed

/-- The number of steps that completed. -/
def completedSteps (report : Report) : Nat := report.steps.countP (·.status == .completed)

/-- The results of the steps of a phase. -/
def stepsIn (report : Report) (phase : Phase) : List StepResult :=
  report.steps.filter (·.phase == phase)

/-- The first result of a step with a name. -/
def step? (report : Report) (name : String) : Option StepResult :=
  report.steps.find? (·.step == name)

/-- The fields of a report. -/
def fields (report : Report) : List (String × Value) := [
  ("execution_id", .text report.execution),
  ("workflow_name", .text report.workflow),
  ("status", .text report.status.name),
  ("steps", .list (report.steps.map StepResult.toValue)),
  ("output", report.output),
  ("error", orNull (report.error.map RunError.toValue))]

/-- The report as a value. -/
def toValue (report : Report) : Value := .ofFields report.fields

end Report

end Workflow
