import Workflow.Step

/-!
# Workflow definitions

A definition has a name, its main steps, the steps that follow a failure of one of them and the
steps that end every run. The trigger describes which event is meant to start a run; nothing here
interprets it.
-/
namespace Workflow

/-- The event that is meant to start a run. -/
structure Trigger where
  kind : String
  /-- The channel on which it arrives. -/
  channel : Option String
  event : Option String
  /-- The times at which it happens. -/
  schedule : Option String
deriving DecidableEq, Repr

/-- The trigger of a workflow that names none: it is started by hand. -/
def Trigger.manual : Trigger := ⟨"manual", none, none, none⟩

/-- A workflow. -/
structure Definition where
  /-- The name under which the workflow is registered. -/
  name : String
  description : Option String
  version : Option String
  /-- The event that is meant to start a run. -/
  trigger : Trigger
  steps : List Step
  /-- The steps that end every run. -/
  onComplete : List Step
  /-- The steps that follow a failure of a main step. -/
  onError : List Step
deriving DecidableEq, Repr

/-- All steps at every depth: the main ones, those after a failure, those at the end. -/
def Definition.allSteps (definition : Definition) : List Step :=
  descendantsOf (definition.steps ++ definition.onError ++ definition.onComplete)

/-- The names of the actions that steps refer to, each with the name of the step. -/
def Definition.actionUses (definition : Definition) : List (String × String) :=
  definition.allSteps.filterMap fun step => step.action.map (step.name, ·)

end Workflow
