import Workflow.Definition.Draft
import Workflow.Toml.Fields
import Workflow.Toml.Reader
import Workflow.Toml.Writer

/-!
# Definitions as documents

The table `workflow` holds what describes the workflow, with its trigger in a table inside it. The
lists `steps`, `on_complete` and `on_error` hold the steps, and a group holds its own list `steps`.
Keys that are not known are refused in a step and ignored elsewhere. Writing leaves out what is
absent and fails where an input or a fallback holds a null.
-/
namespace Workflow

open Toml

/-! ## Reading -/

/-- The fields of a step in their order. -/
def stepFields : List String :=
  ["name", "type", "action", "output", "condition", "timeout", "loop", "fallback", "input", "steps"]

/-- The fields of a trigger in their order. -/
def triggerFields : List String := ["type", "channel", "event", "schedule"]

/-- The fields of the description of a workflow in their order. -/
def workflowFields : List String := ["name", "description", "version", "trigger"]

/-- The draft of a step with given entries and steps inside it. -/
def StepDraft.ofEntries (entries : List (String × Item)) (steps : List StepDraft) :
    Except Fault StepDraft := do
  let kind ← optional (fun item => item.choice?.bind StepKind.ofName?) "type" entries
  return {
    name := ← required Item.text? "name" entries
    kind := kind.getD .action
    action := ← optional Item.text? "action" entries
    output := ← optional Item.text? "output" entries
    condition := ← optional Item.text? "condition" entries
    timeout := ← optional Item.natural? "timeout" entries
    loopOver := ← optional Item.text? "loop" entries
    fallback := ← optional Item.value? "fallback" entries
    input := ← optional Item.value? "input" entries
    steps }

mutual

/-- The draft of a step that an item describes. -/
def StepDraft.ofItem : Item → Except Fault StepDraft
  | .table entries => do
    let steps ← subStepsUnder entries
    StepDraft.ofEntries (← (Item.table entries).fields stepFields true) steps
  | .list items => do
    let steps ← subStepsAt (stepFields.length - 1) items
    StepDraft.ofEntries (stepFields.zip items) steps
  | _ => throw (.mistyped "step")

/-- The drafts of a list of steps. -/
def stepDrafts : Item → Except Fault (List StepDraft)
  | .list items => stepDraftsOf items
  | _ => throw (.mistyped "steps")

/-- The drafts that items describe. -/
def stepDraftsOf : List Item → Except Fault (List StepDraft)
  | [] => return []
  | item :: rest => return (← StepDraft.ofItem item) :: (← stepDraftsOf rest)

/-- The drafts of the steps inside a step among its entries. -/
def subStepsUnder : List (String × Item) → Except Fault (List StepDraft)
  | [] => return []
  | (key, item) :: rest => if key = "steps" then stepDrafts item else subStepsUnder rest

/-- The drafts of the steps inside a step at a position of its list. -/
def subStepsAt : Nat → List Item → Except Fault (List StepDraft)
  | _, [] => return []
  | 0, item :: _ => stepDrafts item
  | position + 1, _ :: rest => subStepsAt position rest

end

/-- The trigger that an item describes. -/
def Trigger.ofItem (item : Item) : Except Fault Trigger := do
  let entries ← item.fields triggerFields false
  return {
    kind := ← required Item.text? "type" entries
    channel := ← optional Item.text? "channel" entries
    event := ← optional Item.text? "event" entries
    schedule := ← optional Item.text? "schedule" entries }

/-- The drafts of the steps under a key of a document. -/
def stepsUnder (key : String) (document : Document) : Except Fault (List StepDraft) :=
  match document.lookup key with
  | some item => stepDrafts item
  | none => .ok []

/-- The draft that a document describes. -/
def Draft.ofDocument (document : Document) : Except Fault Draft := do
  let description ← required some "workflow" document
  let entries ← description.fields workflowFields false
  let trigger ← match entries.lookup "trigger" with
    | some item => Trigger.ofItem item
    | none => pure .manual
  return {
    name := ← required Item.text? "name" entries
    description := ← optional Item.text? "description" entries
    version := ← optional Item.text? "version" entries
    trigger
    steps := ← stepsUnder "steps" document
    onComplete := ← stepsUnder "on_complete" document
    onError := ← stepsUnder "on_error" document }

/-- The definition that a text describes. -/
def Definition.ofText (text : String) : Except ConfigError Definition := do
  let document ← (Document.ofText text).mapError .malformed
  let draft ← (Draft.ofDocument document).mapError .malformed
  draft.validate.mapError .invalid

/-! ## Writing -/

/-- The entry of an optional text. -/
def textEntry (key : String) (text : Option String) : List (String × Item) :=
  text.toList.map fun text => (key, .text text)

/-- The entry of an optional number. -/
def numberEntry (key : String) (number : Option Nat) : List (String × Item) :=
  number.toList.map fun (number : Nat) => (key, .integer number)

/-- The entry of an optional value; a value with a null in it cannot be written. -/
def valueEntry? (key : String) : Option Value → Option (List (String × Item))
  | none => some []
  | some value => (Item.ofValue? value).map fun item => [(key, item)]

/-- The entry of a list, unless it is empty. -/
def listEntry (key : String) (items : List Item) : List (String × Item) :=
  if items.isEmpty then [] else [(key, .list items)]

mutual

/-- A step as an item. -/
def StepDraft.toItem? : StepDraft → Option Item
  | { name, kind, action, output, condition, timeout, loopOver, fallback, input, steps } => do
    let fallback ← valueEntry? "fallback" fallback
    let input ← valueEntry? "input" input
    let steps ← stepItems? steps
    some (.table ([("name", .text name), ("type", .text kind.name)] ++
      textEntry "action" action ++ textEntry "output" output ++ textEntry "condition" condition ++
      numberEntry "timeout" timeout ++ textEntry "loop" loopOver ++ fallback ++ input ++
      listEntry "steps" steps))

/-- Steps as items. -/
def stepItems? : List StepDraft → Option (List Item)
  | [] => some []
  | step :: rest => do
    let item ← step.toItem?
    let items ← stepItems? rest
    some (item :: items)

end

/-- A trigger as an item. -/
def Trigger.toItem (trigger : Trigger) : Item :=
  .table (("type", .text trigger.kind) :: (textEntry "channel" trigger.channel ++
    textEntry "event" trigger.event ++ textEntry "schedule" trigger.schedule))

/-- A draft as a document. -/
def Draft.toDocument? (draft : Draft) : Option Document := do
  let steps ← stepItems? draft.steps
  let onComplete ← stepItems? draft.onComplete
  let onError ← stepItems? draft.onError
  let description := ("name", .text draft.name) :: (textEntry "description" draft.description ++
    textEntry "version" draft.version ++ [("trigger", draft.trigger.toItem)])
  some ([("workflow", .table description), ("steps", .list steps)] ++
    listEntry "on_complete" onComplete ++ listEntry "on_error" onError)

/-- The text of a definition. -/
def Definition.text (definition : Definition) : Except ConfigError String :=
  match definition.draft.toDocument? with
  | some document => .ok document.text
  | none => .error .unwritable

end Workflow
