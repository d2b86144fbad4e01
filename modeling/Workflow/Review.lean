import Workflow.Decision
import Workflow.Step

/-!
# Reviews by humans

A step that asks a human makes a request. The identifier of the run and the name of the step form
the key by which a decision finds the request. Decisions become the result of the step.
-/
namespace Workflow

/-- By what a decision finds the request it answers. -/
structure ReviewKey where
  execution : String
  step : String
deriving DecidableEq, Repr

/-- What a step asks a human. -/
structure Request where
  execution : String
  workflow : String
  step : String
  /-- What is to be reviewed. -/
  input : Value
  /-- What takes the place of an answer that does not come in time. -/
  fallback : Option Value
  /-- The time limit in milliseconds. -/
  timeout : Option Nat
deriving DecidableEq, Repr

namespace Request

/-- The key of a request. -/
def key (request : Request) : ReviewKey := ⟨request.execution, request.step⟩

/-- The fields that all descriptions of a request share. -/
def commonFields (request : Request) : List (String × Value) := [
  ("execution_id", .text request.execution),
  ("workflow_name", .text request.workflow),
  ("step_name", .text request.step),
  ("input", request.input),
  ("fallback", request.fallback.getD .null)]

/-- The description of a request for those who watch the engine. -/
def fields (request : Request) : List (String × Value) :=
  let timeout := match request.timeout with
    | none => .null
    | some limit => .ofFields [
        ("secs", .ofNat (limit / 1000)),
        ("nanos", .ofNat (limit % 1000 * 1000000))]
  request.commonFields ++ [("timeout", timeout)]

/-- The input of the action that notifies the human. -/
def notification (request : Request) : Value :=
  .ofFields (request.commonFields ++
    [("timeout_ms", (request.timeout.map Value.ofNat).getD .null)])

end Request

/-- The reason of a rejection that gives none. -/
def usualRejectReason : String := "no reason provided"

/-- The value of a step that a human has approved, with the reviewed data. -/
def approvedValue (input : Value) : Value :=
  .ofFields [("approved", .bool true), ("data", input)]

/-- The value of a step that a human has approved with other data. -/
def modifiedValue (data : Value) : Value :=
  .ofFields [("approved", .bool true), ("modified", .bool true), ("data", data)]

/-- The value of a review that counts as approved because nobody answered in time. -/
def unansweredValue (input : Value) : Value :=
  .ofFields [("approved", .bool true), ("autoApproved", .bool true), ("data", input)]

/-- The value of an action that counts as approved because it did not finish in time. -/
def unfinishedValue : Value :=
  .ofFields [("approved", .bool true), ("autoApproved", .bool true)]

end Workflow
