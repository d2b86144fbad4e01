import Workflow.Execution.Steps

/-!
# Executors by name

Custom executors for the steps whose names begin in a certain way: they fail, describe what they
were given, run the steps inside the step one after another, or give a fixed output.
-/
namespace Workflow

/-- What an executor does with its steps. -/
inductive CustomBehavior where
  | fail (error : StepError)
  /-- Give a description of the step, its input and its context. -/
  | describe
  /-- Run the steps inside the step one after another and give what became of each. -/
  | dispatch
  | reply (output : Output)

/-- Named values as a list of pairs. -/
def pairsValue (pairs : List (String × Value)) : Value :=
  .list (pairs.map fun pair => .list [.text pair.1, pair.2])

/-- An output as a value. -/
def Output.toValue (output : Output) : Value :=
  .ofFields [("value", output.value), ("exports", pairsValue output.exports)]

/-- An outcome as a value. -/
def Outcome.toValue : Outcome → Value
  | .ok (some output) => output.toValue
  | .ok none => .text "skipped"
  | .error error => error.toValue

/-- What a step was given. -/
def description (context : Context) (step : Step) (input : Value) : Value :=
  .ofFields [
    ("execution_id", .text context.execution),
    ("workflow_name", .text context.workflow),
    ("step", .text step.name),
    ("input", input),
    ("outputs", context.outputs)]

/-- Run steps one after another. What became of the earlier ones is in reverse. -/
def dispatchInOrder (reversed : List Value) : List (Step × Process) → Process
  | [] => .settle (.ofValue (.list reversed.reverse))
  | (_, process) :: rest => process.after fun outcome =>
    dispatchInOrder (Outcome.toValue outcome :: reversed) rest

/-- The executor for the steps whose names begin in a certain way. -/
def CustomExecutor.named (beginning : String) (behavior : CustomBehavior) : CustomExecutor where
  supports step := beginning.toList.isPrefixOf step.name.toList
  process context step input members :=
    match behavior with
    | .fail error => .settle (.error error)
    | .describe => .settle (.ofValue (description context step input))
    | .dispatch => dispatchInOrder [] members
    | .reply output => .settle (.ok (some output))

end Workflow
