import Workflow.Execution.Environment

/-!
# Activities

An activity is a process that has been started and waits for something: for an action, for a human,
or for the activities it is made of. Starting a process and resuming an activity go on as far as
possible without waiting.
-/
namespace Workflow

/-- A process that has been started. -/
inductive Activity where
  | ended (outcome : Outcome)
  /-- It waits for an action. -/
  | calling (call : Call) (next : CallEnd → Process)
  /-- It holds a seat at the desk. -/
  | seated (seat : Seat) (body : Activity)
  /-- It waits for a human, until an alarm rings if there is a limit. -/
  | awaiting (seat : Seat) (deadline : Option Alarm) (next : Option Decision → Process)
  /-- It waits until all its members have ended. -/
  | together (members : List Activity) (next : List Outcome → Process)

namespace Activity

/-- The outcomes of activities that have all ended. -/
def outcomes? : List Activity → Option (List Outcome)
  | [] => some []
  | .ended outcome :: rest => (outcomes? rest).map (outcome :: ·)
  | _ :: _ => none

/-- Hold a seat until the body has ended. -/
def hold (seat : Seat) (environment : Environment) : Activity → Environment × Activity
  | .ended outcome => (environment.leave seat, .ended outcome)
  | body => (environment, .seated seat body)

end Activity

mutual

/-- Start a process. -/
def Process.start (environment : Environment) : Process → Environment × Activity
  | .settle outcome => (environment, .ended outcome)
  | .warn warning next => next.start (environment.warn warning)
  | .lookUp action next => (next (environment.actions.find? action)).start environment
  | .call registration input limit next =>
    let (call, environment) := environment.beginCall registration input limit
    match environment.callEnd? call with
    | some callEnd => (next callEnd).start (environment.recordEnd call callEnd)
    | none => (environment, .calling call next)
  | .review request body =>
    -- Whoever hears of the request finds it on the desk.
    let (seat, environment) := environment.makeRequest request
    let environment := environment.publish (.reviewRequested request)
    let (environment, activity) := (body seat).start environment
    activity.hold seat environment
  | .await seat limit next =>
    let (deadline, environment) := environment.setLimit limit
    match environment.lookForMail seat deadline with
    | (.received decision, environment) => (next decision).start environment
    | (.waiting deadline, environment) => (environment, .awaiting seat deadline next)
  | .together members next =>
    let (environment, activities) := startAll environment members
    match Activity.outcomes? activities with
    | some outcomes => (next outcomes).start environment
    | none => (environment, .together activities next)

/-- Start processes in order. -/
def startAll (environment : Environment) : List Process → Environment × List Activity
  | [] => (environment, [])
  | process :: rest =>
    let (environment, activity) := process.start environment
    let (environment, activities) := startAll environment rest
    (environment, activity :: activities)

end

namespace Activity

mutual

/-- Go on as far as possible. -/
def resume (environment : Environment) : Activity → Environment × Activity
  | .ended outcome => (environment, .ended outcome)
  | .calling call next =>
    match environment.callEnd? call with
    | some callEnd => (next callEnd).start (environment.recordEnd call callEnd)
    | none => (environment, .calling call next)
  | .seated seat body =>
    let (environment, body) := body.resume environment
    body.hold seat environment
  | .awaiting seat deadline next =>
    match environment.lookForMail seat deadline with
    | (.received decision, environment) => (next decision).start environment
    | (.waiting deadline, environment) => (environment, .awaiting seat deadline next)
  | .together members next =>
    let (environment, members) := resumeAll environment members
    match outcomes? members with
    | some outcomes => (next outcomes).start environment
    | none => (environment, .together members next)

/-- Go on with activities in order. -/
def resumeAll (environment : Environment) : List Activity → Environment × List Activity
  | [] => (environment, [])
  | activity :: rest =>
    let (environment, activity) := activity.resume environment
    let (environment, rest) := resumeAll environment rest
    (environment, activity :: rest)

end

mutual

/-- Drop an activity: calls are cancelled and seats are left, from the inside out. -/
def drop (environment : Environment) : Activity → Environment
  | .ended _ => environment
  | .calling call _ => environment.record call.recordedAs .cancelled
  | .seated seat body => (body.drop environment).leave seat
  | .awaiting _ _ _ => environment
  | .together members _ => dropAll environment members

/-- Drop activities in order. -/
def dropAll (environment : Environment) : List Activity → Environment
  | [] => environment
  | activity :: rest => dropAll (activity.drop environment) rest

end

mutual

/-- There is something for which the activity has waited. -/
def isReady (environment : Environment) : Activity → Bool
  | .ended _ => false
  | .calling call _ => (environment.callEnd? call).isSome
  | .seated _ body => body.isReady environment
  | .awaiting seat deadline _ =>
    environment.desk.letter seat.ticket != .awaited || deadline.any environment.hasRung
  | .together members _ => anyReady environment members

/-- One of several activities can go on. -/
def anyReady (environment : Environment) : List Activity → Bool
  | [] => false
  | activity :: rest => activity.isReady environment || anyReady environment rest

end

mutual

/-- The alarms that are set for an activity. -/
def alarms : Activity → List Alarm
  | .ended _ => []
  | .calling call _ => call.alarms
  | .seated _ body => body.alarms
  | .awaiting _ deadline _ => deadline.toList
  | .together members _ => allAlarms members

/-- The alarms that are set for activities. -/
def allAlarms : List Activity → List Alarm
  | [] => []
  | activity :: rest => activity.alarms ++ allAlarms rest

end

end Activity

end Workflow
