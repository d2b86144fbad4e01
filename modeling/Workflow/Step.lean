import Workflow.Value

/-!
# Steps

A step is one unit of work of a workflow: a call of an action, a group of steps that run side by
side, or a review by a human. A group holds further steps, so steps form a tree. Names, actions
and expressions are kept as texts; their meaning depends on the run.
-/
namespace Workflow

/-- What a step does. -/
inductive StepKind where
  | action
  | parallel
  | humanInLoop
deriving DecidableEq, Repr

namespace StepKind

/-- The name of a kind. -/
def name : StepKind → String
  | .action => "action"
  | .parallel => "parallel"
  | .humanInLoop => "human_in_loop"

/-- All kinds. -/
def all : List StepKind := [.action, .parallel, .humanInLoop]

/-- The kind with a name. -/
def ofName? (name : String) : Option StepKind := all.find? (·.name == name)

/-- A name is read back as the kind that bears it. -/
theorem ofName?_name (kind : StepKind) : ofName? kind.name = some kind := by
  cases kind <;> decide

end StepKind

/-- What takes the place of a result that does not come in time. -/
inductive Fallback where
  /-- The step counts as approved. -/
  | autoApprove
  | value (value : Value)
deriving DecidableEq, Repr

namespace Fallback

/-- The text that asks for automatic approval. -/
def approvalKeyword : String := "auto_approve"

/-- The fallback that a value stands for. -/
def ofValue : Value → Fallback
  | .text word => if word = approvalKeyword then .autoApprove else .value (.text word)
  | other => .value other

/-- The value that stands for a fallback. -/
def toValue : Fallback → Value
  | .autoApprove => .text approvalKeyword
  | .value fixed => fixed

/-- The value of a fallback that was read from a value is that value. -/
theorem toValue_ofValue (written : Value) : (ofValue written).toValue = written := by
  unfold ofValue
  split
  · split <;> simp_all [toValue]
  · rfl

end Fallback

/-- A step with the steps inside it. -/
structure Step where
  /-- The name, by which a decision of a human finds the step. -/
  name : String
  kind : StepKind
  /-- The action to call; for a human step the action that notifies the human. -/
  action : Option String
  /-- The input, in which references are still to be resolved. -/
  input : Option Value
  /-- The name under which the result is stored. -/
  output : Option String
  /-- The condition under which the step runs. -/
  condition : Option String
  /-- The time limit in milliseconds. -/
  timeout : Option Nat
  /-- What takes the place of a result that does not come in time. -/
  fallback : Option Fallback
  /-- The expression for the list over which the action is repeated. -/
  loopOver : Option String
  /-- The steps of a group. -/
  steps : List Step
deriving Repr

mutual

/-- Whether two steps are the same. -/
def Step.decideEq : (left right : Step) → Decidable (left = right)
  | { name, kind, action, input, output, condition, timeout, fallback, loopOver, steps },
    { name := name', kind := kind', action := action', input := input', output := output',
      condition := condition', timeout := timeout', fallback := fallback', loopOver := loopOver',
      steps := steps' } =>
    match decideStepsEq steps steps' with
    | isTrue same => decidable_of_iff
        (name = name' ∧ kind = kind' ∧ action = action' ∧ input = input' ∧ output = output' ∧
          condition = condition' ∧ timeout = timeout' ∧ fallback = fallback' ∧
          loopOver = loopOver')
        (by simp [same])
    | isFalse differ => isFalse (by simp [differ])

/-- Whether two lists of steps are the same. -/
def decideStepsEq : (left right : List Step) → Decidable (left = right)
  | [], [] => isTrue rfl
  | [], _ :: _ | _ :: _, [] => isFalse (by simp)
  | left :: lefts, right :: rights =>
    match left.decideEq right, decideStepsEq lefts rights with
    | isTrue same, isTrue rest => isTrue (by rw [same, rest])
    | isFalse differ, _ => isFalse (by simp [differ])
    | _, isFalse differ => isFalse (by simp [differ])

end

instance : DecidableEq Step := Step.decideEq

mutual

/-- A step and the steps inside it, each before those inside it. -/
def Step.descendants : Step → List Step
  | { name, kind, action, input, output, condition, timeout, fallback, loopOver, steps } =>
    { name, kind, action, input, output, condition, timeout, fallback, loopOver, steps } ::
      descendantsOf steps

/-- Steps and the steps inside them, each before those inside it. -/
def descendantsOf : List Step → List Step
  | [] => []
  | step :: rest => step.descendants ++ descendantsOf rest

end

end Workflow
