import Workflow.Review

/-!
# Events

An engine announces the beginning and the end of each run and each request to a human.
-/
namespace Workflow

/-- How a run ended. -/
inductive RunStatus where
  | completed
  | failed
deriving DecidableEq, Repr

/-- The name of a status. -/
def RunStatus.name : RunStatus → String
  | .completed => "completed"
  | .failed => "failed"

/-- What an engine announces. -/
inductive Event where
  | runStarted (execution workflow : String)
  | reviewRequested (request : Request)
  | runFinished (execution workflow : String) (status : RunStatus)
deriving DecidableEq, Repr

namespace Event

/-- The identifier of the run. -/
def execution : Event → String
  | .runStarted execution _ => execution
  | .reviewRequested request => request.execution
  | .runFinished execution _ _ => execution

/-- The event as a value. -/
def toValue : Event → Value
  | .runStarted execution workflow => .ofFields [
      ("type", .text "run_started"),
      ("execution_id", .text execution),
      ("workflow_name", .text workflow)]
  | .reviewRequested request =>
    .ofFields (("type", .text "human_review_requested") :: request.fields)
  | .runFinished execution workflow status => .ofFields [
      ("type", .text "run_finished"),
      ("execution_id", .text execution),
      ("workflow_name", .text workflow),
      ("status", .text status.name)]

end Event

end Workflow
