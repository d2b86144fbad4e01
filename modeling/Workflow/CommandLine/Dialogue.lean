import Workflow.Host.Reviews
import Workflow.Host.Runs

/-!
# Dialogues about reviews

While a workflow runs, its requests are answered one after another in the order of their events:
either all of them are approved, or each is shown and answered by a line. A line that says nothing
is asked again. When there are no more lines, humans count as letting the time run out.
-/
namespace Workflow.CommandLine

/-- The decision that a line expresses: a word, with a reason behind `reject`, or a record. -/
def decisionOfLine? (line : List Char) : Option Decision :=
  let word := String.ofList (line.takeWhile (· ≠ ' '))
  let rest := Text.trim ((line.dropWhile (· ≠ ' ')).drop 1)
  match word with
  | "approve" => some .approve
  | "timeout" => some .timeout
  | "reject" => some (.reject (if rest.isEmpty then none else some (String.ofList rest)))
  | _ => if line.head? = some '{' then Decision.ofText? (String.ofList line) else none

/-- What is said in a dialogue. -/
inductive Utterance where
  | question (request : Request)
  /-- A line says nothing. -/
  | misunderstood (line : String)
deriving DecidableEq, Repr

/-- The text of an utterance. -/
def Utterance.text : Utterance → String
  | .question request =>
    "[" ++ request.workflow ++ "] ステップ '" ++ request.step ++ "' の確認待ち: " ++
      request.input.compact
  | .misunderstood line => "入力を解釈できませんでした: " ++ line

/-- What is shown before a line is read. -/
def linePrompt : String := "approve / reject [理由] / timeout / JSON > "

/-- A run with somebody who answers its requests. -/
structure Dialogue where
  host : Host
  /-- How far the events have been read. -/
  reader : Receiver
  /-- Requests are approved without asking. -/
  approves : Bool
  /-- The request that has been shown and waits for a line. -/
  asking : Option Request
  /-- What has been said, the last utterance first. -/
  said : List Utterance

/-- What a dialogue needs to go on. -/
inductive Need where
  | line
  /-- That a time comes. -/
  | time (instant : Nat)
  /-- Nothing: the run has ended. -/
  | nothing (result : Except EngineError Report)
  | never

namespace Dialogue

/-- Begin a run and a dialogue about it. The events are read from before the run on. -/
def begin (host : Host) (workflow execution : String) (trigger : Value) (approves : Bool) :
    Dialogue where
  reader := (host.engine 0).channel.subscribe
  host := (host.start 0 workflow execution trigger).2
  approves := approves
  asking := none
  said := []

/-- Hand in a decision about a request. -/
def decide (dialogue : Dialogue) (request : Request) (decision : Decision) : Dialogue :=
  { dialogue with
    host := (dialogue.host.submit 0 request.key decision).2
    asking := none }

/-- Say something. -/
def say (dialogue : Dialogue) (utterance : Utterance) : Dialogue :=
  { dialogue with said := utterance :: dialogue.said }

/-- Take note of an event. -/
def notice (dialogue : Dialogue) : Channel.Notice → Dialogue
  | .lost count => { dialogue with host := dialogue.host.warn (.eventsLost count) }
  | .event (.reviewRequested request) =>
    if dialogue.approves then dialogue.decide request .approve
    else { dialogue with asking := some request }.say (.question request)
  | .event _ => dialogue

/-- The result of the run, if it has ended. -/
def result? (dialogue : Dialogue) : Option (Except EngineError Report) :=
  match dialogue.host.runs with
  | [.ended result] => some result
  | _ => none

/-- Go on until something is needed, taking note of a limited number of events. -/
def proceedWithin : Nat → Dialogue → Dialogue × Need
  | 0, dialogue => (dialogue, .never)
  | events + 1, dialogue =>
    match dialogue.result?, dialogue.asking with
    | some result, _ => (dialogue, .nothing result)
    | none, some _ => (dialogue, .line)
    | none, none =>
      match (dialogue.host.engine 0).channel.next? dialogue.reader with
      | some (notice, reader) => proceedWithin events ({ dialogue with reader }.notice notice)
      | none =>
        match dialogue.host.nextTimer? with
        | some time => (dialogue, .time time)
        | none => (dialogue, .never)

/-- The number of events that can still come at once: each step of the run makes at most one
request, every event can be preceded by the news of lost ones, and the run ends once. -/
def eventBound (dialogue : Dialogue) : Nat :=
  2 * ((dialogue.host.engine 0).channel.published + (dialogue.host.tasks.map Task.size).foldl Nat.add 0 + 2)

/-- Go on until something is needed. -/
def proceed (dialogue : Dialogue) : Dialogue × Need :=
  let dialogue := { dialogue with host := dialogue.host.settle }
  proceedWithin dialogue.eventBound dialogue

/-- Hear a line, or that there are no more. -/
def hear (dialogue : Dialogue) (line : Option String) : Dialogue :=
  match dialogue.asking, line with
  | none, _ => dialogue
  | some request, none => dialogue.decide request .timeout
  | some request, some line =>
    let line := Text.trim line.toList
    match decisionOfLine? line with
    | some decision => dialogue.decide request decision
    | none => dialogue.say (.misunderstood (String.ofList line))

/-- A time has come. -/
def reach (dialogue : Dialogue) (time : Nat) : Dialogue :=
  { dialogue with host := { dialogue.host with now := time } }

end Dialogue

end Workflow.CommandLine
