import Workflow.Engine
import Workflow.Library.Files

/-!
# Hosts

A host holds engines that share one library, and the tasks that run on them: runs in the
background, and at most one task in the foreground for which somebody waits. Its clock stands still
while there is something to do; otherwise it jumps to the next time at which a task can go on.

The tasks that can go on stand in a queue: first the one in the foreground, then the runs in the
order in which their alarms ring. A task that goes on can wake another one by dropping its request;
those that it wakes go to the end of the queue.
-/
namespace Workflow

/-- The greatest time in milliseconds for which anything is waited for. -/
def patience : Nat := 1000000000

/-- Something that an engine is doing. -/
inductive Task where
  /-- A step outside of any run, with the number of steps in it. -/
  | single (engine size : Nat) (activity : Activity)
  | running (engine : Nat) (run : Run)
  /-- A run that has ended, or was refused, and whose result has not been taken. -/
  | ended (result : Except EngineError Report)
  /-- A run whose result has been taken, or that was dropped. -/
  | taken

/-- A place of a task on a host. -/
inductive Task.Place where
  | foreground
  /-- The background, with the number of the run. -/
  | background (number : Nat)
deriving DecidableEq, Repr

/-- A host. -/
structure Host where
  now : Nat
  /-- The number of alarms that have been set. -/
  alarmsSet : Nat
  library : Library
  disk : Disk
  engines : List Engine
  foreground : Option Task
  /-- The runs in the background, in the order in which they were started. -/
  runs : List Task
  /-- The receivers of events, each with its engine. -/
  receivers : List (Nat × Receiver)
  /-- The record of calls, the last entry first. -/
  calls : List CallRecord
  /-- The warnings, the last one first. -/
  warnings : List Warning

namespace Host

/-- A host with engines. -/
def new (library : Library) (disk : Disk) (engines : List Engine) : Host where
  now := 0
  alarmsSet := 0
  library := library
  disk := disk
  engines := engines
  foreground := none
  runs := []
  receivers := []
  calls := []
  warnings := []

/-- An engine of the host. -/
def engine (host : Host) (index : Nat) : Engine :=
  host.engines[index]?.getD (.new .usual [])

/-- What the tasks of an engine share. -/
def environment (host : Host) (engine : Engine) : Environment where
  now := host.now
  alarmsSet := host.alarmsSet
  actions := host.library.actions
  desk := engine.desk
  channel := engine.channel
  publications := engine.publications
  calls := host.calls
  warnings := host.warnings

/-- Take over what has become of the environment of an engine. -/
def absorb (host : Host) (index : Nat) (environment : Environment) : Host :=
  { host with
    alarmsSet := environment.alarmsSet
    library := { host.library with actions := environment.actions }
    engines := host.engines.modify index fun engine => { engine with
      desk := environment.desk
      channel := environment.channel
      publications := environment.publications }
    calls := environment.calls
    warnings := environment.warnings }

/-- Do something in the environment of an engine. -/
def within (host : Host) (index : Nat) (act : Setup → Environment → Environment × A) : Host × A :=
  let engine := host.engine index
  let (environment, result) := act engine.setup (host.environment engine)
  (host.absorb index environment, result)

/-- Give a warning. -/
def warn (host : Host) (warning : Warning) : Host :=
  { host with warnings := warning :: host.warnings }

/-! ## Tasks -/

end Host

namespace Task

/-- The task of a run in a state. -/
def ofState (engine : Nat) : RunState → Task
  | .waiting run => .running engine run
  | .over report => .ended (.ok report)

/-- Go on with a task as far as possible. -/
def resume (host : Host) : Task → Host × Task
  | .single engine size activity =>
    let (host, activity) := host.within engine fun _ environment => activity.resume environment
    (host, .single engine size activity)
  | .running engine run =>
    let (host, state) := host.within engine fun setup environment => run.resume setup environment
    (host, ofState engine state)
  | other => (host, other)

/-- Drop what a task is doing. -/
def drop (host : Host) : Task → Host
  | .single engine _ activity =>
    (host.within engine fun _ environment => (activity.drop environment, ())).1
  | .running engine run =>
    (host.within engine fun _ environment => (run.drop environment, ())).1
  | _ => host

/-- What a task waits for has come. -/
def isReady (host : Host) : Task → Bool
  | .single engine _ activity => activity.isReady (host.environment (host.engine engine))
  | .running engine run => run.activity.isReady (host.environment (host.engine engine))
  | _ => false

/-- The alarms that are set for a task. -/
def alarms : Task → List Alarm
  | .single _ _ activity => activity.alarms
  | .running _ run => run.activity.alarms
  | _ => []

/-- The number of steps of a task, each of which makes at most one request. -/
def size : Task → Nat
  | .single _ size _ => size
  | .running _ run => run.definition.allSteps.length
  | _ => 0

/-- There is nothing left to do. -/
def isOver : Task → Bool
  | .single _ _ (.ended _) => true
  | .single _ _ _ => false
  | .running _ _ => false
  | .ended _ => true
  | .taken => true

end Task

namespace Host

/-- All tasks, the one in the foreground first. -/
def tasks (host : Host) : List Task := host.foreground.toList ++ host.runs

/-- The task in a place. -/
def task? (host : Host) : Task.Place → Option Task
  | .foreground => host.foreground
  | .background number => host.runs[number]?

/-- Put a task into a place in which there is one. -/
def put (host : Host) (task : Task) : Task.Place → Host
  | .foreground => { host with foreground := some task }
  | .background number => { host with runs := host.runs.set number task }

/-- The places of the tasks, the one in the foreground first. -/
def places (host : Host) : List Task.Place :=
  (host.foreground.toList.map fun _ => .foreground) ++
    (List.range host.runs.length).map .background

/-- The turn of the task in a place among those that can go on: the foreground has the first one,
the runs have theirs in the order of their alarms that have rung, and those that something else has
woken come last. -/
def turn (host : Host) : Task.Place → Nat
  | .foreground => 0
  | .background number =>
    let alarms := (host.runs[number]?.map Task.alarms).getD []
    match ((alarms.filter (·.time ≤ host.now)).map Alarm.rank).min? with
    | some rank => rank + 1
    | none => host.alarmsSet + 1

/-- The places of the tasks that can go on, in the order of their turns. -/
def ready (host : Host) : List Task.Place :=
  (host.places.filter fun place => (host.task? place).any (Task.isReady host)).mergeSort
    fun first second => host.turn first ≤ host.turn second

/-- Go on with the task in a place. -/
def goOn (host : Host) (place : Task.Place) : Host :=
  match host.task? place with
  | some task =>
    let (host, task) := task.resume host
    host.put task place
  | none => host

/-- Go on with the tasks in a queue and with those that they wake, in at most a number of turns. -/
def settleWithin : Nat → List Task.Place → Host → Host
  | 0, _, host => host
  | _, [], host => host
  | turns + 1, place :: queue, host =>
    let host := host.goOn place
    settleWithin turns (queue ++ host.ready.filter (!queue.contains ·)) host

/-- Go on until no task is ready. Each task has at most one turn at first, and each turn after that
is due to a request that was dropped; a step makes at most one request. -/
def settle (host : Host) : Host :=
  settleWithin (host.tasks.length + (host.tasks.map Task.size).foldl Nat.add 0) host.ready host

/-- The next time at which a task can go on. -/
def nextTimer? (host : Host) : Option Nat :=
  (((host.tasks.flatMap Task.alarms).map Alarm.time).filter (host.now < ·)).min?

/-- Let the time pass until something is done or a deadline is reached; what is done exactly at the
deadline is in time. It is told whether it was done. -/
def waitUntil (deadline : Nat) (isDone : Host → Bool) (host : Host) : Host × Bool :=
  let settled := host.settle
  if isDone settled then (settled, true)
  else
    match settled.nextTimer? with
    | none => ({ settled with now := deadline }, false)
    | some time =>
      if host.now < time ∧ time ≤ deadline then
        waitUntil deadline isDone { settled with now := time }
      else ({ settled with now := deadline }, false)
termination_by deadline - host.now

/-- Wait for something as long as there is patience. -/
def await (host : Host) (isDone : Host → Bool) : Host × Bool :=
  -- The time comes second: a sum that ends in a numeral is counted out when it is evaluated.
  host.waitUntil (patience + host.now) isDone

end Host

end Workflow
