import Workflow.ConfigError
import Workflow.Context
import Workflow.Definition
import Workflow.Text.Blank

/-!
# Drafts of definitions

A draft has the form of a definition but has not been checked. Checking trims names, drops blank
optional texts, reads the fallback and finds the first thing that is wrong. Every definition has a
draft, which is what is written to a document.
-/
namespace Workflow

/-- A step that has not been checked. -/
structure StepDraft where
  name : String
  kind : StepKind
  action : Option String
  output : Option String
  condition : Option String
  /-- The time limit in milliseconds. -/
  timeout : Option Nat
  /-- The expression for a list as written. -/
  loopOver : Option String
  /-- The value of the fallback. -/
  fallback : Option Value
  input : Option Value
  steps : List StepDraft
deriving Repr

/-- A definition that has not been checked. -/
structure Draft where
  name : String
  description : Option String
  version : Option String
  trigger : Trigger
  steps : List StepDraft
  onComplete : List StepDraft
  onError : List StepDraft
deriving Repr

/-! ## Checking -/

/-- An optional text, unless it is blank. -/
def unlessBlank (text : Option String) : Option String :=
  text.filter fun text => !Text.isBlankText text

/-- The names under which no step may store its result. -/
def reservedNames : List String := [triggerName, itemName]

/-- The first flaw of a step whose optional texts are not blank, the steps inside it aside. -/
def stepFlaw? (kind : StepKind) (action output loopOver : Option String) (timeout : Option Nat)
    (hasSubSteps : Bool) : Option StepFlaw :=
  if kind = .action ∧ action.isNone then some .missingAction
  else if kind = .parallel ∧ ¬hasSubSteps then some .missingSubSteps
  else if kind = .parallel ∧ action.isSome then some .needlessAction
  else if kind ≠ .parallel ∧ hasSubSteps then some .needlessSubSteps
  else if kind ≠ .action ∧ loopOver.isSome then some .needlessLoop
  else if timeout = some 0 then some .zeroTimeout
  else (output.filter (· ∈ reservedNames)).map .reservedOutput

/-- The first name that occurs for a second time, counting those already seen. -/
def firstRepeated? (seen : List String) : List String → Option String
  | [] => none
  | name :: rest => if name ∈ seen then some name else firstRepeated? (name :: seen) rest

/-- Refuse a list of steps of which two have one name. -/
def ensureDistinct (scope : StepScope) (steps : List Step) : Except Invalidity Unit :=
  match firstRepeated? [] (steps.map Step.name) with
  | some name => .error (.repeatedStep scope name)
  | none => .ok ()

mutual

/-- The step that a draft describes. -/
def StepDraft.validate : StepDraft → Except Invalidity Step
  | { name, kind, action, output, condition, timeout, loopOver, fallback, input, steps } => do
    let name := Text.trimmed name
    if name.isEmpty then throw .blankStepName
    let action := unlessBlank action
    let output := unlessBlank output
    let loopOver := unlessBlank loopOver
    if let some flaw := stepFlaw? kind action output loopOver timeout !steps.isEmpty then
      throw (.step name flaw)
    let steps ← validateSteps steps
    ensureDistinct (.group name) steps
    return {
      name, kind, action, input, output, timeout, loopOver, steps
      condition := unlessBlank condition
      fallback := fallback.map .ofValue }

/-- The steps that drafts describe. -/
def validateSteps : List StepDraft → Except Invalidity (List Step)
  | [] => return []
  | draft :: rest => return (← draft.validate) :: (← validateSteps rest)

end

/-- The definition that a draft describes. -/
def Draft.validate (draft : Draft) : Except Invalidity Definition := do
  let name := Text.trimmed draft.name
  if name.isEmpty then throw .blankWorkflowName
  if draft.steps.isEmpty then throw (.noSteps name)
  let steps ← validateSteps draft.steps
  let onComplete ← validateSteps draft.onComplete
  let onError ← validateSteps draft.onError
  ensureDistinct (.main name) steps
  ensureDistinct (.onComplete name) onComplete
  ensureDistinct (.onError name) onError
  return {
    name, steps, onComplete, onError
    description := draft.description
    version := draft.version
    trigger := draft.trigger }

/-! ## The draft of a definition -/

mutual

/-- The draft of a step. -/
def Step.draft : Step → StepDraft
  | { name, kind, action, input, output, condition, timeout, fallback, loopOver, steps } =>
    { name, kind, action, output, condition, timeout, loopOver, input
      fallback := fallback.map Fallback.toValue
      steps := draftsOf steps }

/-- The drafts of steps. -/
def draftsOf : List Step → List StepDraft
  | [] => []
  | step :: rest => step.draft :: draftsOf rest

end

/-- The draft of a definition. -/
def Definition.draft (definition : Definition) : Draft where
  name := definition.name
  description := definition.description
  version := definition.version
  trigger := definition.trigger
  steps := draftsOf definition.steps
  onComplete := draftsOf definition.onComplete
  onError := draftsOf definition.onError

end Workflow
