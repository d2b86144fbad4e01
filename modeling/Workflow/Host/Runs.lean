import Workflow.Host

/-!
# Runs on a host

A run is started in the background under a number, or executed in the foreground. Its result can be
taken once. A run that is not over when patience ends stays in the background; in the foreground it
is dropped.
-/
namespace Workflow

/-- What is learned about a run. -/
inductive RunAnswer where
  | finished (result : Except EngineError Report)
  | running
  /-- It has not ended before patience did. -/
  | stuck
  /-- It was dropped. -/
  | aborted
  /-- Its result has been taken, or there is no such run. -/
  | gone

namespace Host

/-- Begin a run of a workflow on an engine. -/
def begin (host : Host) (engine : Nat) (workflow execution : String) (trigger : Value) :
    Host × Task :=
  match host.library.find? workflow with
  | none => (host, .ended (.error (.workflowNotFound workflow)))
  | some definition =>
    let (host, state) := host.within engine fun setup environment =>
      Run.start setup definition execution trigger environment
    (host, .ofState engine state)

/-- Start a run in the background: its number. -/
def start (host : Host) (engine : Nat) (workflow execution : String) (trigger : Value) :
    Nat × Host :=
  let (host, task) := host.begin engine workflow execution trigger
  (host.runs.length, { host with runs := host.runs ++ [task] }.settle)

/-- A run in the background is over. -/
def isOver (number : Nat) (host : Host) : Bool := host.runs[number]?.all Task.isOver

/-- Take the result of a run. -/
def take (host : Host) (number : Nat) : RunAnswer × Host :=
  match host.runs[number]? with
  | some (.ended result) =>
    (.finished result, { host with runs := host.runs.set number .taken })
  | some (.running _ _) => (.running, host)
  | _ => (.gone, host)

/-- Take the result of a run without waiting for it. -/
def poll (host : Host) (number : Nat) : RunAnswer × Host := host.settle.take number

/-- Wait for a run and take its result. -/
def join (host : Host) (number : Nat) : RunAnswer × Host :=
  match host.await (isOver number) with
  | (host, true) => host.take number
  | (host, false) => (.stuck, host)

/-- Start a run in the background and wait for it. -/
def executeWithId (host : Host) (engine : Nat) (workflow execution : String) (trigger : Value) :
    RunAnswer × Host :=
  let (number, host) := host.start engine workflow execution trigger
  host.join number

/-- The task in the foreground is over. -/
def isForegroundOver (host : Host) : Bool := host.foreground.all Task.isOver

/-- Wait for a task in the foreground, which is dropped if it is not over when patience ends. The
task is given as it is then. -/
def awaitForeground (host : Host) (task : Task) : Option Task × Host :=
  match { host with foreground := some task }.await isForegroundOver with
  | (host, true) => (host.foreground, { host with foreground := none })
  | (host, false) =>
    let dropped := (host.foreground.map (Task.drop host)).getD host
    (none, { dropped with foreground := none }.settle)

/-- Execute a run in the foreground. -/
def execute (host : Host) (engine : Nat) (workflow execution : String) (trigger : Value) :
    RunAnswer × Host :=
  let (host, task) := host.begin engine workflow execution trigger
  match host.awaitForeground task with
  | (some (.ended result), host) => (.finished result, host)
  | (_, host) => (.stuck, host)

/-- Drop a run; one that is over gives its result. -/
def abort (host : Host) (number : Nat) : RunAnswer × Host :=
  match host.take number with
  | (.running, host) =>
    let dropped := (host.runs[number]?.map (Task.drop host)).getD host
    (.aborted, { dropped with runs := dropped.runs.set number .taken }.settle)
  | (answer, host) => (answer, host)

/-- Let a number of milliseconds pass, as long as there is patience; it is told whether there was
enough. -/
def advance (host : Host) (duration : Nat) : Bool × Host :=
  let (host, _) := host.waitUntil (host.now + min duration patience) fun _ => false
  (duration ≤ patience, host.settle)

end Host

end Workflow
