import Workflow.StepError
import Workflow.Value.Writer

/-!
# Actions

An action is called with an input and answers after some time with a value or an error, or never.
Its answer may depend on how often it has been called before. Three actions are built in.
-/
namespace Workflow

/-- What a call is going to give. -/
inductive Answer where
  /-- A value or an error after a number of milliseconds. -/
  | after (delay : Nat) (result : Except ActionError Value)
  | never

/-- The answer that comes later by a number of milliseconds. -/
def Answer.delayed (delay : Nat) : Answer → Answer
  | .after rest result => .after (delay + rest) result
  | .never => .never

/-- An action. -/
structure Action where
  /-- The name under which its calls are recorded, if they are. -/
  recordedAs : Option String
  /-- The answer to a call with an input, by the number of earlier calls. -/
  answer : (earlier : Nat) → (input : Value) → Answer

namespace Action

/-- An action whose calls are not recorded and do not depend on earlier ones. -/
def plain (answer : Value → Answer) : Action := ⟨none, fun _ input => answer input⟩

/-- An action that always gives the same value at once. -/
def constant (value : Value) : Action := plain fun _ => .after 0 (.ok value)

/-- The action that gives its input back. -/
def echo : Action := plain fun input => .after 0 (.ok input)

/-- The action that takes note of its input. -/
def log : Action := constant (.ofFields [("logged", .bool true)])

/-- The time that `wait` waits when the input names none, in milliseconds. -/
def usualWait : Nat := 1000

/-- The number of milliseconds that an input asks to wait. -/
def waitingTime (input : Value) : Except ActionError Nat :=
  match input.field? "duration" with
  | none | some .null => .ok usualWait
  | some (.number (.integer duration)) =>
    if 0 ≤ duration then .ok duration.toNat
    else .error ⟨"duration が不正です: " ++ (Value.ofInt duration).compact⟩
  | some other => .error ⟨"duration が不正です: " ++ other.compact⟩

/-- The action that waits as long as its input says. -/
def wait : Action := plain fun input =>
  match waitingTime input with
  | .ok duration => .after duration (.ok (.ofFields [("waited", .ofNat duration)]))
  | .error error => .after 0 (.error error)

/-- The actions that are built in, with their names. -/
def builtIn : List (String × Action) := [("log", log), ("wait", wait), ("echo", echo)]

end Action

end Workflow
