import Workflow.Value.Reader

/-!
# Decisions

What a human decides about a request. A decision is written as a record whose field `action` names
it, or as a list that begins with the name. A field that the decision knows may occur once, others
are not looked at; a list may hold nothing beyond the fields.
-/
namespace Workflow

/-- The decision of a human. -/
inductive Decision where
  | approve
  /-- Other data takes the place of the input. -/
  | modify (data : Value)
  | reject (reason : Option String)
  /-- The human lets the time run out. -/
  | timeout
deriving DecidableEq, Repr

namespace Decision

/-- The decision in canonical form. -/
def toValue : Decision → Value
  | .approve => .ofFields [("action", .text "approve")]
  | .modify data => .ofFields [("action", .text "modify"), ("data", data)]
  | .reject reason =>
    .ofFields [("action", .text "reject"), ("reason", (reason.map Value.text).getD .null)]
  | .timeout => .ofFields [("action", .text "timeout")]

/-- The only value under a key, if it occurs; two of them are refused. -/
def only? (key : String) (fields : List (String × Value)) : Option (Option Value) :=
  match fields.filter fun field => field.1 == key with
  | [] => some none
  | [field] => some (some field.2)
  | _ => none

/-- The reason that a value gives. -/
def reason? : Value → Option (Option String)
  | .null => some none
  | .text reason => some (some reason)
  | _ => none

/-- The decision that fields describe. -/
def ofFields? (fields : List (String × Value)) : Option Decision :=
  match only? "action" fields with
  | some (some (.text "approve")) => some .approve
  | some (some (.text "timeout")) => some .timeout
  | some (some (.text "modify")) =>
    match only? "data" fields with
    | some (some data) => some (.modify data.canonical)
    | _ => none
  | some (some (.text "reject")) =>
    match only? "reason" fields with
    | some (some reason) => (reason? reason).map .reject
    | some none => some (.reject none)
    | none => none
  | _ => none

/-- The decision that a list describes. -/
def ofItems? : List Value → Option Decision
  | [.text "approve"] => some .approve
  | [.text "timeout"] => some .timeout
  | [.text "modify", data] => some (.modify data.canonical)
  | [.text "reject"] => some (.reject none)
  | [.text "reject", reason] => (reason? reason).map .reject
  | _ => none

/-- The decision that a value describes, in which keys may still be repeated. -/
def ofValue? : Value → Option Decision
  | .record fields => ofFields? fields
  | .list items => ofItems? items
  | _ => none

/-- The decision that a text describes. -/
def ofText? (text : String) : Option Decision := (Value.ofTextAsWritten? text).bind ofValue?

end Decision

end Workflow
