import Workflow.Action.Registry
import Workflow.Review.Desk
import Workflow.Warning

/-!
# Processes

What a step is going to do is a process: a tree in which each node asks the engine for something
and goes on with what the engine answers. A process has no state; what happens while it waits is
said by activities.
-/
namespace Workflow

/-- What a step that ran gives. -/
structure Output where
  value : Value
  /-- Further values that are stored under names. -/
  exports : List (String × Value)
deriving DecidableEq, Repr

/-- A value without exports. -/
def Output.ofValue (value : Value) : Output := ⟨value, []⟩

/-- How a step ends: with an error, with an output, or with nothing since it was skipped. -/
abbrev Outcome := Except StepError (Option Output)

/-- The outcome of a step that gives a value and no exports. -/
def Outcome.ofValue (value : Value) : Outcome := .ok (some (.ofValue value))

/-- How a call of an action ends. -/
inductive CallEnd where
  | returned (result : Except ActionError Value)
  /-- The time limit was over first. -/
  | cut

/-- What a step is going to do. -/
inductive Process where
  | settle (outcome : Outcome)
  | warn (warning : Warning) (next : Process)
  | lookUp (action : String) (next : Option Registration → Process)
  /-- Call an action, with a time limit in milliseconds if there is one. -/
  | call (registration : Registration) (input : Value) (limit : Option Nat)
      (next : CallEnd → Process)
  /-- Lay a request to a human on the desk, then announce it, and keep a seat at the desk as long as
  the body takes. -/
  | review (request : Request) (body : Seat → Process)
  /-- Wait for the decision about a request, with a time limit if there is one; nothing is given
  when the request was dropped. -/
  | await (seat : Seat) (limit : Option Nat) (next : Option Decision → Process)
  /-- Run processes side by side until all have ended. -/
  | together (members : List Process) (next : List Outcome → Process)

/-- Give a warning, if there is one, and go on. -/
def Process.warnSome (warning : Option Warning) (next : Process) : Process :=
  match warning with
  | some warning => .warn warning next
  | none => next

/-- Run one process, then go on with its outcome. -/
def Process.after (first : Process) (next : Outcome → Process) : Process :=
  .together [first] fun
    | [outcome] => next outcome
    | _ => .settle (.ok none)

end Workflow
