import Workflow.Host

/-!
# Reviews on a host

Humans hand in decisions, and watchers read the events and the open requests.
-/
namespace Workflow

/-- The warning about a decision that was not delivered. -/
def Submission.warning? (key : ReviewKey) : Submission → Option Warning
  | .noRequest => some (.noRequest key)
  | .stepEnded => some (.stepEnded key)
  | .delivered => none

namespace Host

/-- Hand in a decision; it is told whether it was delivered. -/
def submit (host : Host) (engine : Nat) (key : ReviewKey) (decision : Decision) : Bool × Host :=
  let (host, delivered) := host.within engine fun _ environment =>
    let (submission, desk) := environment.desk.submit key decision
    let environment := { environment with desk }
    match submission.warning? key with
    | some warning => (environment.warn warning, false)
    | none => (environment, true)
  (delivered, host.settle)

/-- The open requests of an engine in the order in which they were made. -/
def pending (host : Host) (engine : Nat) : List Request :=
  (host.engine engine).desk.entries.map OpenRequest.request

/-- The open requests of all engines. -/
def allPending (host : Host) : List Request :=
  host.engines.flatMap fun engine => engine.desk.entries.map OpenRequest.request

/-- Subscribe to the events of an engine: the number of the receiver. -/
def subscribe (host : Host) (engine : Nat) : Nat × Host :=
  (host.receivers.length,
    { host with
      receivers := host.receivers ++ [(engine, (host.engine engine).channel.subscribe)] })

/-- All that waits for a receiver, if there is such a one. -/
def receive (host : Host) (number : Nat) : Option Delivery × Host :=
  match host.receivers[number]? with
  | none => (none, host)
  | some (engine, receiver) =>
    let (delivery, receiver) := (host.engine engine).channel.receive receiver
    (some delivery, { host with receivers := host.receivers.set number (engine, receiver) })

end Host

end Workflow
