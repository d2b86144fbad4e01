import Workflow.ConfigError
import Workflow.Toml.Fields
import Workflow.Toml.Reader

/-!
# Settings of an engine

Where definitions are kept, how many steps of a group run at once, the time limit of actions that
have none of their own, and how many events wait for each receiver. A document describes them in
the table `engine`; what is missing there has its usual value.
-/
namespace Workflow

open Toml

/-- The settings of an engine. -/
structure Settings where
  /-- The directory of the definitions. -/
  workflowsDirectory : Option String := none
  /-- The number of steps of a group that run at once. -/
  maxParallelSteps : Nat := 10
  /-- The time limit in milliseconds of actions that have none of their own. -/
  defaultActionTimeout : Option Nat := none
  /-- The number of events kept for each receiver. -/
  eventBuffer : Nat := 64
deriving DecidableEq, Repr

namespace Settings

/-- The usual settings. -/
def usual : Settings := {}

/-- The fields of the settings in their order. -/
def fieldNames : List String :=
  ["workflows_dir", "max_parallel_steps", "default_action_timeout_ms", "event_buffer"]

/-- The first setting that is zero and must not be. -/
def zeroSetting? (settings : Settings) : Option PositiveSetting :=
  if settings.maxParallelSteps = 0 then some .maxParallelSteps
  else if settings.defaultActionTimeout = some 0 then some .defaultActionTimeout
  else if settings.eventBuffer = 0 then some .eventBuffer
  else none

/-- The settings that an item describes. -/
def ofItem (item : Item) : Except Fault Settings := do
  let entries ← item.fields fieldNames true
  let maxParallelSteps ← optional Item.natural? "max_parallel_steps" entries
  let eventBuffer ← optional Item.natural? "event_buffer" entries
  return {
    workflowsDirectory := ← optional Item.text? "workflows_dir" entries
    maxParallelSteps := maxParallelSteps.getD usual.maxParallelSteps
    defaultActionTimeout := ← optional Item.natural? "default_action_timeout_ms" entries
    eventBuffer := eventBuffer.getD usual.eventBuffer }

/-- The settings that a document describes. -/
def ofDocument (document : Document) : Except Fault Settings :=
  match document.lookup "engine" with
  | some item => ofItem item
  | none => .ok usual

/-- The settings that a text describes. -/
def ofText (text : String) : Except ConfigError Settings := do
  let document ← (Document.ofText text).mapError .malformed
  let settings ← (ofDocument document).mapError .malformed
  match settings.zeroSetting? with
  | some setting => throw (.invalid (.zeroSetting setting))
  | none => return settings

end Settings

end Workflow
