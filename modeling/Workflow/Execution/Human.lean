import Workflow.Context
import Workflow.Execution.Process

/-!
# Steps that ask a human

The step lays a request on the desk, announces it, calls the action that notifies the human if it
names one, and waits for a decision. The time limit begins when the human has been notified.
-/
namespace Workflow

/-- The request of a step. -/
def requestOf (context : Context) (step : Step) (input : Value) : Request where
  execution := context.execution
  workflow := context.workflow
  step := step.name
  input := input
  fallback := step.fallback.map Fallback.toValue
  timeout := step.timeout

/-- The outcome of a step whose human let the time run out, with the warning about it. -/
def unanswered (step : Step) (input : Value) : Option Warning × Outcome :=
  match step.fallback with
  | some .autoApprove => (some (.autoApproved step.name), .ofValue (unansweredValue input))
  | _ => (none, .error (.humanTimedOut step.name))

/-- The outcome of a step that a decision determines, with the warning about it. -/
def decided (step : Step) (input : Value) : Decision → Option Warning × Outcome
  | .approve => (none, .ofValue (approvedValue input))
  | .modify data => (none, .ofValue (modifiedValue data))
  | .reject reason => (none, .error (.humanRejected step.name (reason.getD usualRejectReason)))
  | .timeout => unanswered step input

/-- What a step does with a decision; without one its request was dropped. -/
def afterDecision (step : Step) (input : Value) : Option Decision → Process
  | none => .settle (.error (.humanAborted step.name))
  | some decision =>
    let (warning, outcome) := decided step input decision
    .warnSome warning (.settle outcome)

/-- Wait for the decision about a request. -/
def awaitDecision (step : Step) (input : Value) (seat : Seat) : Process :=
  .await seat step.timeout (afterDecision step input)

/-- Go on when the action has answered that notifies the human, unless it failed. -/
def afterNotice (action : String) (next : Process) : CallEnd → Process
  | .returned (.ok _) => next
  | .returned (.error source) => .settle (.error (.actionFailed action source))
  | .cut => next

/-- Call an action with the notification about a request, then go on. -/
def notifyHuman (action : String) (request : Request) (next : Process) : Process :=
  .lookUp action fun
    | none => .settle (.error (.unknownAction action))
    | some registration => .call registration request.notification none (afterNotice action next)

/-- What a step does once its request lies on the desk and has been announced. -/
def onceSeated (context : Context) (step : Step) (input : Value) (seat : Seat) : Process :=
  match step.action with
  | none => awaitDecision step input seat
  | some action =>
    notifyHuman action (requestOf context step input) (awaitDecision step input seat)

/-- The process of a step that asks a human. -/
def askHuman (context : Context) (step : Step) (input : Value) : Process :=
  .review (requestOf context step input) (onceSeated context step input)

end Workflow
