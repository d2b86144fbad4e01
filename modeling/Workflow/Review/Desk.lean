import Workflow.Review

/-!
# The desk of open requests

The desk keeps the requests that wait for a decision, at most one under each key. Every request
has a letter box of its own, into which the decision is put and from which the step takes it. A new
request under a key takes the place of the one that is there; the step that makes it holds the box
of the replaced request until it ends.

When a step ends, whatever request lies under its key is discarded. The box of a discarded request
will not be answered any more, and the step that waits for it learns so.
-/
namespace Workflow

/-- The number of a letter box. -/
abbrev Ticket := Nat

/-- What is in a letter box. -/
inductive Letter where
  /-- Nothing, and a decision may still come. -/
  | awaited
  | answered (decision : Decision)
  /-- Nothing, and no decision can come any more. -/
  | abandoned
  /-- Nobody looks into the box any more. -/
  | closed
deriving DecidableEq, Repr

/-- A request that waits for a decision. -/
structure OpenRequest where
  request : Request
  /-- Its letter box. -/
  ticket : Ticket
deriving DecidableEq, Repr

/-- The key of an open request. -/
def OpenRequest.key (entry : OpenRequest) : ReviewKey := entry.request.key

/-- The open requests in the order in which they were made, and all letter boxes by number. -/
structure Desk where
  /-- The open requests, the oldest first. -/
  entries : List OpenRequest
  /-- The letter boxes. -/
  letters : List Letter
deriving DecidableEq, Repr

/-- What a step holds while it waits for a human. -/
structure Seat where
  key : ReviewKey
  /-- The letter box of its request. -/
  ticket : Ticket
  /-- The letter box of the request that it replaced. -/
  replaced : Option Ticket
deriving DecidableEq, Repr

/-- What became of a decision that was handed in. -/
inductive Submission where
  | noRequest
  /-- The step of the request has ended. -/
  | stepEnded
  /-- The decision is in the letter box of the request. -/
  | delivered
deriving DecidableEq, Repr

namespace Desk

/-- A desk without requests. -/
def empty : Desk := ⟨[], []⟩

/-- The open request under a key. -/
def find? (desk : Desk) (key : ReviewKey) : Option OpenRequest :=
  desk.entries.find? (·.key == key)

/-- What is in a letter box. -/
def letter (desk : Desk) (ticket : Ticket) : Letter := desk.letters[ticket]?.getD .closed

/-- Put something into a letter box. -/
def setLetter (desk : Desk) (ticket : Ticket) (letter : Letter) : Desk :=
  { desk with letters := desk.letters.set ticket letter }

/-- Give up a letter box: an answer that has not come yet will not come. -/
def abandon (desk : Desk) (ticket : Ticket) : Desk :=
  match desk.letter ticket with
  | .awaited => desk.setLetter ticket .abandoned
  | _ => desk

/-- Take the request under a key off the desk. -/
def without (desk : Desk) (key : ReviewKey) : Desk :=
  { desk with entries := desk.entries.filter (·.key != key) }

/-- Discard the request under a key, if there is one. -/
def discard (desk : Desk) (key : ReviewKey) : Desk :=
  match desk.find? key with
  | some entry => (desk.without key).abandon entry.ticket
  | none => desk

/-- Lay a request on the desk. The request that it replaces keeps its letter box. -/
def sitDown (desk : Desk) (request : Request) : Seat × Desk :=
  let ticket := desk.letters.length
  let desk' := desk.without request.key
  (⟨request.key, ticket, (desk.find? request.key).map OpenRequest.ticket⟩,
    { entries := desk'.entries ++ [⟨request, ticket⟩], letters := desk'.letters ++ [.awaited] })

/-- A step ends: the request under its key is discarded, the letter box of the one it replaced is
given up, and its own box is closed. -/
def standUp (desk : Desk) (seat : Seat) : Desk :=
  let desk := desk.discard seat.key
  let desk := match seat.replaced with
    | some ticket => desk.abandon ticket
    | none => desk
  desk.setLetter seat.ticket .closed

/-- Take the request under a key off the desk, if there is one, in order to answer it. -/
def take (desk : Desk) (key : ReviewKey) : Option OpenRequest × Desk :=
  match desk.find? key with
  | some entry => (some entry, desk.without key)
  | none => (none, desk)

/-- Put a decision into a letter box, unless the step has ended that looked into it. -/
def send (desk : Desk) (ticket : Ticket) (decision : Decision) : Submission × Desk :=
  match desk.letter ticket with
  | .awaited => (.delivered, desk.setLetter ticket (.answered decision))
  | _ => (.stepEnded, desk)

/-- Hand in a decision: the request is taken off the desk, then the decision is put into its box. -/
def submit (desk : Desk) (key : ReviewKey) (decision : Decision) : Submission × Desk :=
  match desk.take key with
  | (some entry, desk) => desk.send entry.ticket decision
  | (none, desk) => (.noRequest, desk)

end Desk

end Workflow
