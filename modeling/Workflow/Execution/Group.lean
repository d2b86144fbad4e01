import Workflow.Execution.Process

/-!
# Groups

The steps of a group run in batches. The steps of a batch run side by side, and a batch begins when
the one before it has ended. The value of the group is a record with the value of each step under
its name; a step that was skipped or failed counts as null. What the steps export and the values
they store under names are exported by the group in the order of the steps.
-/
namespace Workflow

/-- Cut a list into batches of a size, which counts as one if it is zero. -/
def batches (size : Nat) (items : List A) : List (List A) :=
  match items with
  | [] => []
  | item :: rest => (item :: rest.take (size - 1)) :: batches size (rest.drop (size - 1))
termination_by items.length
decreasing_by simp only [List.length_drop, List.length_cons]; omega

/-- What a group has collected so far. -/
structure Collected where
  /-- The values of the steps in order. -/
  values : List (String × Value)
  /-- The exports in order. -/
  exports : List (String × Value)

namespace Collected

/-- Nothing has been collected yet. -/
def nothing : Collected := ⟨[], []⟩

/-- What a step stores under its name for the result. -/
def stored (step : Step) (value : Value) : List (String × Value) :=
  step.output.toList.map (·, value)

/-- Add the outcome of a step. -/
def add (collected : Collected) (step : Step) : Outcome → Collected
  | .ok (some output) =>
    ⟨collected.values ++ [(step.name, output.value)],
      collected.exports ++ output.exports ++ stored step output.value⟩
  | .ok none | .error _ => { collected with values := collected.values ++ [(step.name, .null)] }

/-- Add the outcomes of steps. -/
def addAll (collected : Collected) (outcomes : List (Step × Outcome)) : Collected :=
  outcomes.foldl (fun collected entry => collected.add entry.1 entry.2) collected

/-- The output of the group. -/
def output (collected : Collected) : Output := ⟨.ofFields collected.values, collected.exports⟩

end Collected

/-- The warning about the outcome of a step of a group. -/
def subStepWarning? (group : String) (step : Step) : Outcome → Option Warning
  | .error error => some (.subStepFailed group step.name error)
  | .ok _ => none

/-- Give warnings in order and go on. -/
def Process.warnAll (warnings : List Warning) (next : Process) : Process :=
  warnings.foldr .warn next

/-- Run batches of steps one after another. -/
def runBatches (group : String) (collected : Collected) : List (List (Step × Process)) → Process
  | [] => .settle (.ok (some collected.output))
  | batch :: rest => .together (batch.map Prod.snd) fun outcomes =>
    let handled := (batch.map Prod.fst).zip outcomes
    .warnAll (handled.filterMap fun entry => subStepWarning? group entry.1 entry.2)
      (runBatches group (collected.addAll handled) rest)

/-- The process of a group, given the processes of its steps. -/
def runGroup (size : Nat) (group : Step) (members : List (Step × Process)) : Process :=
  if members.isEmpty then .settle (.error (.noSubSteps group.name))
  else runBatches group.name .nothing (batches size members)

end Workflow
