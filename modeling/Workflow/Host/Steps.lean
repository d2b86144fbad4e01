import Workflow.Host.Runs

/-!
# Single steps on a host

An action can be called and a step be executed outside of any run. Somebody waits for the outcome;
what is not over when patience ends is dropped.
-/
namespace Workflow

namespace Host

/-- Run a process with a number of steps in the foreground; nothing is given when patience ends. -/
def perform (host : Host) (engine size : Nat) (process : Process) : Option Outcome × Host :=
  let (host, activity) := host.within engine fun _ environment => process.start environment
  match host.awaitForeground (.single engine size activity) with
  | (some (.single _ _ (.ended outcome)), host) => (some outcome, host)
  | (_, host) => (none, host)

/-- The process that calls an action; it is skipped if the action is not registered. -/
def callProcess (action : String) (input : Value) : Process :=
  .lookUp action fun
    | none => .settle (.ok none)
    | some registration => .call registration input none fun
      | .returned (.ok value) => .settle (.ofValue value)
      | .returned (.error source) => .settle (.error (.actionFailed action source))
      | .cut => .settle (.ok none)

/-- Call an action. -/
def callAction (host : Host) (engine : Nat) (action : String) (input : Value) :
    Option Outcome × Host :=
  host.perform engine 0 (callProcess action input)

/-- Execute a step in a context as an engine does. -/
def dispatch (host : Host) (engine : Nat) (step : Step) (context : Context) :
    Option Outcome × Host :=
  host.perform engine step.descendants.length (step.process (host.engine engine).setup context)

/-- Which executor is to execute a step, with its own settings. -/
inductive Executor where
  /-- The one that calls actions, with a time limit for those without one. -/
  | action (usualLimit : Option Nat)
  /-- The one that runs groups, with the number of steps that run at once. -/
  | parallel (maxParallelSteps : Nat)
  /-- The one that asks humans, with a desk of its own. -/
  | human

/-- An executor supports the steps of one kind. -/
def Executor.kind : Executor → StepKind
  | .action _ => .action
  | .parallel _ => .parallel
  | .human => .humanInLoop

/-- Execute a step by one executor, whatever its condition and kind. The steps inside it are
executed as the engine does. -/
def runExecutor (host : Host) (engine : Nat) (executor : Executor) (step : Step)
    (context : Context) (input : Value) : Option Outcome × Host :=
  let size := step.descendants.length
  match executor with
  | .action usualLimit =>
    host.perform engine size (Workflow.callAction usualLimit context step input)
  | .parallel maxParallelSteps =>
    let members := processesOf (host.engine engine).setup context step.steps
    host.perform engine size (runGroup maxParallelSteps step members)
  | .human =>
    let own := host.engines.length
    let host := { host with engines := host.engines ++ [Engine.new .usual []] }
    let (outcome, host) := host.perform own size (askHuman context step input)
    (outcome, { host with engines := host.engines.dropLast })

end Host

end Workflow
