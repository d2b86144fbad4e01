import Workflow.Execution.Action
import Workflow.Execution.Group
import Workflow.Execution.Human

/-!
# The process of a step

A step runs if its condition holds in its context, otherwise it is skipped. The first executor that
supports the step decides what it does: the custom ones are asked before those that every engine
has, one for each kind of steps. The steps inside a step see the same context as the step itself.
-/
namespace Workflow

/-- A way to execute steps. -/
structure Executor where
  /-- The steps that are executed in this way. -/
  supports : Step → Bool
  /-- The process of a step in a context with its input and the processes of the steps inside it. -/
  process : Context → Step → Value → List (Step × Process) → Process

/-- A way to execute steps that is added to those that every engine has. -/
abbrev CustomExecutor := Executor

namespace Executor

/-- The executor of the steps that call an action. -/
def action (usualLimit : Option Nat) : Executor where
  supports step := step.kind == .action
  process context step input _ := callAction usualLimit context step input

/-- The executor of groups. -/
def parallel (maxParallelSteps : Nat) : Executor where
  supports step := step.kind == .parallel
  process _ step _ members := runGroup maxParallelSteps step members

/-- The executor of the steps that ask a human. -/
def human : Executor where
  supports step := step.kind == .humanInLoop
  process context step input _ := askHuman context step input

end Executor

/-- What decides how steps are executed. -/
structure Setup where
  /-- The number of steps of a group that run at once. -/
  maxParallelSteps : Nat
  /-- The time limit of actions that have none of their own. -/
  usualLimit : Option Nat
  /-- The custom executors, the first of which counts. -/
  custom : List CustomExecutor

/-- The executors that every engine has. -/
def Setup.builtIn (setup : Setup) : List Executor :=
  [.action setup.usualLimit, .parallel setup.maxParallelSteps, .human]

/-- The executors in the order in which they are asked whether they support a step. -/
def Setup.executors (setup : Setup) : List Executor := setup.custom ++ setup.builtIn

/-- The process of a step that runs: that of the first executor that supports it. -/
def execute (setup : Setup) (context : Context) (step : Step) (input : Value)
    (members : List (Step × Process)) : Process :=
  match setup.executors.find? (·.supports step) with
  | some executor => executor.process context step input members
  | none => .settle (.error (.noExecutor step.name))

/-- The process of a step, given those of the steps inside it. The main steps of a run and the steps
inside a step are executed in this one way. -/
def perform (setup : Setup) (context : Context) (step : Step)
    (members : List (Step × Process)) : Process :=
  let verdict := Condition.evaluate step.condition context
  let warning := verdict.unreadable.map fun cause => .unreadableCondition cause.1 cause.2
  .warnSome warning
    (if verdict.holds then execute setup context step (step.resolvedInput context) members
    else .settle (.ok none))

mutual

/-- The process of a step in a context. -/
def Step.process (setup : Setup) (context : Context) : Step → Process
  | { name, kind, action, input, output, condition, timeout, fallback, loopOver, steps } =>
    perform setup context
      { name, kind, action, input, output, condition, timeout, fallback, loopOver, steps }
      (processesOf setup context steps)

/-- Steps with their processes in a context. -/
def processesOf (setup : Setup) (context : Context) : List Step → List (Step × Process)
  | [] => []
  | step :: rest => (step, step.process setup context) :: processesOf setup context rest

end

end Workflow
