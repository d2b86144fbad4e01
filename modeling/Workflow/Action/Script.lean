import Workflow.Action

/-!
# Scripted actions

A script says what an action does without any program behind it: give a constant, fail, wrap or
take apart its input, take time, hang, or choose between other scripts. Scripts serve to rehearse a
workflow before its actions exist; their calls are recorded.
-/
namespace Workflow

/-- What a scripted action does. -/
inductive Script where
  | echo
  | constant (result : Value)
  | fail (message : String)
  /-- Give a record with the input under a key. -/
  | wrap (key : String)
  /-- Give the field of the input under a key, or null. -/
  | pick (key : String)
  /-- Do something after a number of milliseconds. -/
  | sleep (duration : Nat) (next : Script)
  | hang
  /-- Choose by the input. -/
  | choose (cases : List (Value × Script)) (otherwise : Script)
  /-- Choose by the number of earlier calls; the last choice counts for all later calls. -/
  | turns (first : Script) (rest : List Script)
deriving Repr, Inhabited

namespace Script

mutual

/-- The answer of a script. -/
def answer (earlier : Nat) (input : Value) : Script → Answer
  | .echo => .after 0 (.ok input)
  | .constant result => .after 0 (.ok result)
  | .fail message => .after 0 (.error ⟨message⟩)
  | .wrap key => .after 0 (.ok (.ofFields [(key, input)]))
  | .pick key => .after 0 (.ok ((input.field? key).getD .null))
  | .sleep duration next => (next.answer earlier input).delayed duration
  | .hang => .never
  | .choose cases otherwise =>
    (answerByCase earlier input cases).getD (otherwise.answer earlier input)
  | .turns first rest =>
    match earlier with
    | 0 => first.answer earlier input
    | turn + 1 => (answerByTurn earlier input turn rest).getD (first.answer earlier input)

/-- The answer of the first case whose value is the input. -/
def answerByCase (earlier : Nat) (input : Value) : List (Value × Script) → Option Answer
  | [] => none
  | (value, script) :: rest =>
    if value.equal input then some (script.answer earlier input)
    else answerByCase earlier input rest

/-- The answer of the script at a position, or of the last one. -/
def answerByTurn (earlier : Nat) (input : Value) : Nat → List Script → Option Answer
  | _, [] => none
  | _, [script] => some (script.answer earlier input)
  | 0, script :: _ => some (script.answer earlier input)
  | turn + 1, _ :: rest => answerByTurn earlier input turn rest

end

/-- The action that follows a script, recorded under a name. -/
def action (name : String) (script : Script) : Action :=
  ⟨some name, fun earlier input => script.answer earlier input⟩

end Script

end Workflow
