import Workflow.Run
import Workflow.Settings

/-!
# Engines

An engine executes steps by its settings and its custom executors. It has a desk for the requests
of its runs and a channel for their events. Actions and definitions are shared between engines.
-/
namespace Workflow

/-- An engine. -/
structure Engine where
  settings : Settings
  custom : List CustomExecutor
  desk : Desk
  channel : Channel
  /-- The record of publications, the last entry first. -/
  publications : List Publication

namespace Engine

/-- A new engine. -/
def new (settings : Settings) (custom : List CustomExecutor) : Engine :=
  ⟨settings, custom, .empty, .ofBuffer settings.eventBuffer, []⟩

/-- What decides how the engine executes steps. -/
def setup (engine : Engine) : Setup :=
  ⟨engine.settings.maxParallelSteps, engine.settings.defaultActionTimeout, engine.custom⟩

end Engine

end Workflow
