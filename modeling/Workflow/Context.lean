import Workflow.Value

/-!
# The context of a run

A context binds names to values. It starts with the trigger payload under a reserved name; a step
with a named output stores its value in the context, the last value stored under a name counting.
A binding that is made for the length of one loop iteration is a variable like any other, but its
name is not among the outputs.
-/
namespace Workflow

/-- The reserved name of the trigger payload. -/
def triggerName : String := "trigger"

/-- The reserved name of the current element of a loop. -/
def itemName : String := "item"

/-- The names a run can refer to, and which of them are outputs. -/
structure Context where
  workflow : String
  execution : String
  /-- The variables, the latest binding first; of bindings with one name the first counts. -/
  bindings : List (String × Value)
  /-- The names of outputs, each once, in the order in which they were first stored. -/
  outputNames : List String
deriving DecidableEq, Repr

namespace Context

/-- The context at the beginning of a run. -/
def start (workflow execution : String) (trigger : Value) : Context :=
  { workflow, execution, bindings := [(triggerName, trigger)], outputNames := [] }

/-- The value bound to a name. -/
def get? (context : Context) (name : String) : Option Value := context.bindings.lookup name

/-- A name is bound. -/
def contains (context : Context) (name : String) : Bool := (context.get? name).isSome

/-- The context with one more variable, which is not an output. -/
def bind (context : Context) (name : String) (value : Value) : Context :=
  { context with bindings := (name, value) :: context.bindings }

/-- Store an output. -/
def setOutput (context : Context) (name : String) (value : Value) : Context :=
  { context.bind name value with
    outputNames :=
      if name ∈ context.outputNames then context.outputNames else context.outputNames ++ [name] }

/-- Store several outputs in order. -/
def setOutputs (context : Context) (outputs : List (String × Value)) : Context :=
  outputs.foldl (fun context output => context.setOutput output.1 output.2) context

/-- The outputs with their current values, as the record of the run. -/
def outputs (context : Context) : Value :=
  .ofFields (context.outputNames.filterMap fun name => (context.get? name).map (name, ·))

end Context

end Workflow
