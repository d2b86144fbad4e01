import Workflow.Action
import Workflow.ConfigError
import Workflow.Table
import Workflow.Text.Blank
import Workflow.Text.Quoted

/-!
# The table of actions

Actions are registered under names without blanks at their ends. Registering a name again replaces
the action for those who look it up later; a step that has looked it up keeps the action it found.
Each registration counts its calls.
-/
namespace Workflow

/-- The number of a registration. -/
abbrev Registration := Nat

/-- An action that has been registered, with the number of its calls so far. -/
structure Registered where
  action : Action
  calls : Nat

/-- The table of actions. -/
structure ActionRegistry where
  /-- All registrations so far, also those that have been replaced. -/
  registrations : List Registered
  /-- The registration under each name. -/
  names : Table Registration

namespace ActionRegistry

/-- A table without actions. -/
def empty : ActionRegistry := ⟨[], []⟩

/-- Register an action under a name as it stands. -/
def insert (registry : ActionRegistry) (name : String) (action : Action) : ActionRegistry where
  registrations := registry.registrations ++ [⟨action, 0⟩]
  names := registry.names.set name registry.registrations.length

/-- Register an action under a name without the blanks at its ends. -/
def register (registry : ActionRegistry) (name : String) (action : Action) :
    Except ConfigError ActionRegistry :=
  let name := Text.trimmed name
  if name.isEmpty then .error (.invalid .blankActionName) else .ok (registry.insert name action)

/-- The table of the actions that are built in. -/
def builtIn : ActionRegistry :=
  Action.builtIn.foldl (fun registry entry => registry.insert entry.1 entry.2) empty

/-- The registration under a name. -/
def find? (registry : ActionRegistry) (name : String) : Option Registration :=
  registry.names.get? name

/-- A name is registered. -/
def contains (registry : ActionRegistry) (name : String) : Bool := (registry.find? name).isSome

/-- The names in ascending order. -/
def sortedNames (registry : ActionRegistry) : List String := registry.names.keys

/-- A description of the table for those who debug. -/
def description (registry : ActionRegistry) : String :=
  "ActionRegistry \x7b actions: [" ++ ", ".intercalate (registry.sortedNames.map Text.quoted) ++
    "] \x7d"

/-- Call a registered action: the answer, the name under which the call is recorded, and the table
in which the call has been counted. -/
def call (registry : ActionRegistry) (registration : Registration) (input : Value) :
    Answer × Option String × ActionRegistry :=
  match registry.registrations[registration]? with
  | none => (.never, none, registry)
  | some registered =>
    (registered.action.answer registered.calls input, registered.action.recordedAs,
      { registry with
        registrations :=
          registry.registrations.set registration ⟨registered.action, registered.calls + 1⟩ })

end ActionRegistry

end Workflow
