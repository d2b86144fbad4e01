import Workflow.Context
import Workflow.Execution.Process

/-!
# Steps that call an action

The action is looked up once. It is called with the resolved input of the step, or, when the step
is repeated over a list, once for each element in order, the input being resolved anew with the
element bound to a name of its own. The first error ends the step.

A call that does not end within the limit of the step, or else the usual limit, gives the fallback
of the step; without a fallback it is an error.
-/
namespace Workflow

/-- What an action gave, or what took the place of it. -/
abbrev CallResult := Except StepError Value

/-- The result of a call that was cut at its limit, with the warning about it. -/
def cutResult (step : Step) (limit : Nat) : Option Warning × CallResult :=
  match step.fallback with
  | some (.value value) => (some (.fallbackUsed step.name limit), .ok value)
  | some .autoApprove => (some (.autoApproved step.name), .ok unfinishedValue)
  | none => (none, .error (.timedOutAfter step.name limit))

/-- Call the action of a step once and go on with the result. -/
def callOnce (step : Step) (action : String) (registration : Registration) (limit : Option Nat)
    (input : Value) (next : CallResult → Process) : Process :=
  .call registration input limit fun
    | .returned (.ok value) => next (.ok value)
    | .returned (.error source) => next (.error (.actionFailed action source))
    | .cut =>
      let (warning, result) := cutResult step (limit.getD 0)
      .warnSome warning (next result)

/-- The input of a step in a context; a step without one gets null. -/
def Step.resolvedInput (step : Step) (context : Context) : Value :=
  (step.input.map (resolveInput context)).getD .null

/-- Call the action of a step for each element of a list. The results so far are in reverse. -/
def callForEach (step : Step) (action : String) (registration : Registration) (limit : Option Nat)
    (context : Context) (reversed : List Value) : List Value → Process
  | [] => .settle (.ofValue (.list reversed.reverse))
  | item :: rest =>
    callOnce step action registration limit (step.resolvedInput (context.bind itemName item)) fun
      | .ok value => callForEach step action registration limit context (value :: reversed) rest
      | .error error => .settle (.error error)

/-- The list over which a step is repeated. -/
def iterated (step : Step) (expression : String) (context : Context) :
    Except StepError (List Value) :=
  match resolve? expression context with
  | none | some .null => .ok []
  | some (.list items) => .ok items
  | some _ => .error (.notIterable step.name expression)

/-- The process of a step that calls an action. -/
def callAction (usualLimit : Option Nat) (context : Context) (step : Step) (input : Value) :
    Process :=
  match step.action with
  | none => .settle (.error (.missingAction step.name))
  | some action => .lookUp action fun
    | none => .settle (.error (.unknownAction action))
    | some registration =>
      let limit := step.timeout <|> usualLimit
      match step.loopOver with
      | none => callOnce step action registration limit input fun
        | .ok value => .settle (.ofValue value)
        | .error error => .settle (.error error)
      | some expression =>
        match iterated step expression context with
        | .ok items => callForEach step action registration limit context [] items
        | .error error => .settle (.error error)

end Workflow
