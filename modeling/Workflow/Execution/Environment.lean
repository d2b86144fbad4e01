import Workflow.Event.Channel
import Workflow.Execution.Process

/-!
# The environment of running steps

What steps share while they run: the time, the actions, the desk of requests, the channel of
events, and the records of calls, publications and warnings. Time is counted in milliseconds.
Whoever waits for a time sets an alarm.
-/
namespace Workflow

/-- What happened to a recorded call. -/
inductive CallEvent where
  | started (input : Value)
  | returned (value : Value)
  | failed (message : String)
  /-- It was dropped before it answered. -/
  | cancelled
deriving DecidableEq, Repr

/-- An entry of the record of calls. -/
structure CallRecord where
  time : Nat
  /-- The name under which the action is recorded. -/
  action : String
  event : CallEvent
deriving DecidableEq, Repr

/-- An event that was published, with the desk as it lay at that moment: what whoever receives the
event can find there, if he is quick. -/
structure Publication where
  event : Event
  desk : Desk
deriving DecidableEq, Repr

/-- An alarm. Of two alarms that ring at one time, the one that was set first rings first. -/
structure Alarm where
  time : Nat
  /-- The number of alarms that had been set before it. -/
  rank : Nat
deriving DecidableEq, Repr

/-- A call that has begun. -/
structure Call where
  /-- The name under which it is recorded, if it is. -/
  recordedAs : Option String
  /-- The alarm at which the action answers, and the answer; none for one that never answers. -/
  answer : Option (Alarm × Except ActionError Value)
  /-- The alarm at which the limit is over. -/
  cutAt : Option Alarm

/-- The alarms that are set for a call. -/
def Call.alarms (call : Call) : List Alarm :=
  (call.answer.map Prod.fst).toList ++ call.cutAt.toList

/-- What running steps share. -/
structure Environment where
  now : Nat
  /-- The number of alarms that have been set. -/
  alarmsSet : Nat
  actions : ActionRegistry
  desk : Desk
  channel : Channel
  /-- The record of publications, the last entry first. -/
  publications : List Publication
  /-- The record of calls, the last entry first. -/
  calls : List CallRecord
  /-- The warnings, the last one first. -/
  warnings : List Warning

namespace Environment

/-- Give a warning. -/
def warn (environment : Environment) (warning : Warning) : Environment :=
  { environment with warnings := warning :: environment.warnings }

/-- Publish an event. -/
def publish (environment : Environment) (event : Event) : Environment :=
  { environment with
    channel := environment.channel.publish event
    publications := ⟨event, environment.desk⟩ :: environment.publications }

/-- Record something about a call, if its action is recorded. -/
def record (environment : Environment) (recordedAs : Option String) (event : CallEvent) :
    Environment :=
  match recordedAs with
  | none => environment
  | some action =>
    { environment with calls := ⟨environment.now, action, event⟩ :: environment.calls }

/-- Set an alarm that rings after a number of milliseconds. -/
def setAlarm (environment : Environment) (delay : Nat) : Alarm × Environment :=
  (⟨environment.now + delay, environment.alarmsSet⟩,
    { environment with alarmsSet := environment.alarmsSet + 1 })

/-- Set an alarm for a time limit, if there is one. -/
def setLimit (environment : Environment) : Option Nat → Option Alarm × Environment
  | some limit =>
    let (alarm, environment) := environment.setAlarm limit
    (some alarm, environment)
  | none => (none, environment)

/-- An alarm has rung. -/
def hasRung (environment : Environment) (alarm : Alarm) : Bool := alarm.time ≤ environment.now

/-- Begin a call. -/
def beginCall (environment : Environment) (registration : Registration) (input : Value)
    (limit : Option Nat) : Call × Environment :=
  let (answer, recordedAs, actions) := environment.actions.call registration input
  let environment := { environment with actions }.record recordedAs (.started input)
  let (answer, environment) := match answer with
    | .after delay result =>
      let (alarm, environment) := environment.setAlarm delay
      (some (alarm, result), environment)
    | .never => (none, environment)
  let (cutAt, environment) := environment.setLimit limit
  (⟨recordedAs, answer, cutAt⟩, environment)

/-- The end of a call, if it has come. An answer that comes exactly at the limit is in time. -/
def callEnd? (environment : Environment) (call : Call) : Option CallEnd :=
  match call.answer with
  | some (alarm, result) =>
    if environment.hasRung alarm then some (.returned result)
    else if call.cutAt.any environment.hasRung then some .cut
    else none
  | none => if call.cutAt.any environment.hasRung then some .cut else none

/-- Record the end of a call. -/
def recordEnd (environment : Environment) (call : Call) : CallEnd → Environment
  | .returned (.ok value) => environment.record call.recordedAs (.returned value)
  | .returned (.error error) => environment.record call.recordedAs (.failed error.message)
  | .cut => environment.record call.recordedAs .cancelled

/-- Lay a request on the desk. If it replaces another one there is a warning. -/
def makeRequest (environment : Environment) (request : Request) : Seat × Environment :=
  let (seat, desk) := environment.desk.sitDown request
  let environment := { environment with desk }
  (seat,
    if seat.replaced.isSome then environment.warn (.requestReplaced request.key) else environment)

/-- Leave the desk. -/
def leave (environment : Environment) (seat : Seat) : Environment :=
  { environment with desk := environment.desk.standUp seat }

/-- What waiting for a decision has come to. -/
inductive Mail where
  /-- There is nothing yet; the time limit still counts if there is one. -/
  | waiting (deadline : Option Alarm)
  /-- A decision, or nothing when the request was dropped. -/
  | received (decision : Option Decision)

/-- The time limit is over: the request under the key is discarded and the human counts as letting
the time run out; but if there is none, somebody has taken it to answer it, and the limit counts no
longer. -/
def expire (environment : Environment) (seat : Seat) : Mail × Environment :=
  match environment.desk.find? seat.key with
  | some _ =>
    (.received (some .timeout), { environment with desk := environment.desk.discard seat.key })
  | none => (.waiting none, environment)

/-- Look for a decision. The letter box is looked into before the time limit is minded. -/
def lookForMail (environment : Environment) (seat : Seat) (deadline : Option Alarm) :
    Mail × Environment :=
  match environment.desk.letter seat.ticket with
  | .answered decision => (.received (some decision), environment)
  | .abandoned | .closed => (.received none, environment)
  | .awaited =>
    if deadline.any environment.hasRung then environment.expire seat
    else (.waiting deadline, environment)

end Environment

end Workflow
