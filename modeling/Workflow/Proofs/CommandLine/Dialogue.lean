import Workflow.CommandLine.Dialogue
import Workflow.Proofs.CommandLine.Approver

/-!
# Dialogues that approve

A dialogue on the command line that approves all requests lets the run go on as far as it can before
it reads an event, and again after each request that it approves. So it is an approver for whom
things happen in one order of many, and what holds of approvers holds of it.
-/
namespace Workflow.CommandLine

namespace Approver

/-- What a host does in one go happens to an approver. -/
theorem happens_of_leads (approver : Approver) {later : Host} (leads : approver.host.Leads later) :
    ∃ moves, approver.afterAll moves = { approver with host := later } := by
  obtain ⟨incidents, -, rfl⟩ := leads
  refine ⟨incidents.map .happens, ?_⟩
  induction incidents generalizing approver with
  | nil => rfl
  | cons incident rest ih =>
    have further := @ih { approver with host := approver.host.after incident }
    exact further

/-- A dialogue that approves requests is where an approver has come to with an empty hand. -/
structure Speaks (approver : Approver) (dialogue : Dialogue) : Prop where
  host : approver.host = dialogue.host
  reader : approver.reader = dialogue.reader
  hand : approver.hand = none
  approves : dialogue.approves = true
  asking : dialogue.asking = none

/-- An approver comes by moves to where a dialogue is. -/
def ComesTo (approver : Approver) (dialogue : Dialogue) : Prop :=
  ∃ moves, (approver.afterAll moves).Speaks dialogue

variable {approver : Approver} {dialogue : Dialogue}

/-- Where an approver has come, it can go on. -/
theorem ComesTo.further {next : Dialogue} (comes : approver.ComesTo dialogue)
    (goesOn : ∀ {later : Approver}, later.Speaks dialogue → later.ComesTo next) :
    approver.ComesTo next := by
  obtain ⟨first, speaks⟩ := comes
  obtain ⟨further, speaks⟩ := goesOn speaks
  exact ⟨first ++ further, by rwa [afterAll, List.foldl_append]⟩

namespace Speaks

/-- A dialogue is what an approver comes to who does nothing more. -/
theorem here (speaks : approver.Speaks dialogue) : approver.ComesTo dialogue := ⟨[], speaks⟩

/-- A dialogue that approves everything begins as an approver does, with a run that enters. -/
theorem begin (host : Host) (workflow execution : String) (trigger : Value) :
    (Approver.begin host).ComesTo (.begin host workflow execution trigger true) := by
  let begun : Approver :=
    { Approver.begin host with host := host.after (.begins 0 workflow execution trigger) }
  obtain ⟨moves, settled⟩ := happens_of_leads begun begun.host.leads_settle
  refine ⟨.happens (.begins 0 workflow execution trigger) :: moves, ?_⟩
  have come : (Approver.begin host).afterAll
      (.happens (.begins 0 workflow execution trigger) :: moves) =
        { begun with host := begun.host.settle } := settled
  rw [come]
  exact ⟨rfl, rfl, rfl, rfl, rfl⟩

/-- The dialogue takes note of what the approver reads, and a request is approved at once. -/
theorem notice (speaks : approver.Speaks dialogue) {notice : Channel.Notice} {reader : Receiver}
    (comes : (dialogue.host.engine 0).channel.next? dialogue.reader = some (notice, reader)) :
    approver.ComesTo ({ dialogue with reader }.notice notice) := by
  obtain ⟨same, read, free, approves, silent⟩ := speaks
  have listens : approver.after .listens = approver.notice reader notice := by
    rw [after, listen, next?, free, same, read, comes]
  cases notice with
  | lost count =>
    refine ⟨[.listens], ?_⟩
    rw [afterAll, List.foldl_cons, listens]
    exact ⟨congrArg (Host.warn · (.eventsLost count)) same, rfl, free, approves, silent⟩
  | event event =>
    have others : event.request? = none → { dialogue with reader }.notice (.event event) =
        { dialogue with reader } := by
      intro other
      cases event with
      | runStarted | runFinished => rfl
      | reviewRequested request => cases other
    cases told : event.request? with
    | none =>
      refine ⟨[.listens], ?_⟩
      rw [afterAll, List.foldl_cons, listens, others told]
      exact ⟨same, rfl, told, approves, silent⟩
    | some request =>
      obtain rfl : event = .reviewRequested request := by
        cases event with
        | runStarted | runFinished => cases told
        | reviewRequested other => exact congrArg Event.reviewRequested (Option.some.inj told)
      let answered : Approver := { approver with
        host := approver.host.handIn 0 request.key .approve, reader, hand := none }
      obtain ⟨moves, settled⟩ :=
        happens_of_leads answered answered.host.leads_settle
      refine ⟨.listens :: .approves :: moves, ?_⟩
      have come : approver.afterAll (.listens :: .approves :: moves) =
          { answered with host := answered.host.settle } := by
        rw [afterAll, List.foldl_cons, listens]
        exact settled
      have decides : ({ dialogue with reader } : Dialogue).notice
          (.event (.reviewRequested request)) =
            ({ dialogue with reader } : Dialogue).decide request .approve :=
        if_pos approves
      rw [come, decides]
      exact ⟨congrArg (fun host => (host.submit 0 request.key .approve).2) same, rfl, rfl, approves,
        rfl⟩

/-- An approver comes to a dialogue whose host has settled. -/
theorem settle (speaks : approver.Speaks dialogue) :
    approver.ComesTo { dialogue with host := dialogue.host.settle } := by
  obtain ⟨same, read, free, approves, silent⟩ := speaks
  obtain ⟨moves, settled⟩ := happens_of_leads approver approver.host.leads_settle
  refine ⟨moves, ?_⟩
  rw [settled]
  exact ⟨congrArg Host.settle same, read, free, approves, silent⟩

/-- An approver comes to a dialogue whose host has reached a later time. -/
theorem reach (speaks : approver.Speaks dialogue) {time : Nat} (later : dialogue.host.now ≤ time) :
    approver.ComesTo (dialogue.reach time) := by
  obtain ⟨same, read, free, approves, silent⟩ := speaks
  have leads : approver.host.Leads { approver.host with now := time } :=
    Host.leads_clock _ (by rwa [same])
  obtain ⟨moves, passed⟩ := happens_of_leads approver leads
  refine ⟨moves, ?_⟩
  rw [passed]
  exact ⟨by rw [same]; rfl, read, free, approves, silent⟩

/-- An approver comes to a dialogue that has gone on for a number of events. -/
theorem proceedWithin (speaks : approver.Speaks dialogue) (events : Nat) :
    approver.ComesTo (dialogue.proceedWithin events).1 := by
  induction events generalizing approver dialogue with
  | zero => exact speaks.here
  | succ events ih =>
    rw [Dialogue.proceedWithin]
    split
    · exact speaks.here
    · exact speaks.here
    · split
      next notice reader comes => exact (speaks.notice comes).further ih
      next => split <;> exact speaks.here

/-- A dialogue that approves goes on as an approver can. -/
theorem proceed (speaks : approver.Speaks dialogue) :
    approver.ComesTo dialogue.proceed.1 :=
  speaks.settle.further fun settled => settled.proceedWithin _

end Speaks

end Approver

/-- A dialogue has come from another one as the command line goes on with it. -/
inductive Dialogue.Comes (begun : Dialogue) : Dialogue → Prop where
  | begins : Comes begun begun
  | proceeds {dialogue : Dialogue} (comes : Comes begun dialogue) : Comes begun dialogue.proceed.1
  | reaches {dialogue : Dialogue} (comes : Comes begun dialogue) {time : Nat}
      (later : dialogue.host.now ≤ time) : Comes begun (dialogue.reach time)

/-- A dialogue that approves leaves no request on the desk when there is nothing to read, as long as
the channel has had room for all events. -/
theorem Dialogue.all_approved {settings : Settings} {library : Library} {disk : Disk}
    {workflow execution : String} {trigger : Value} {dialogue : Dialogue}
    (comes : (Dialogue.begin (.new library disk [.new settings []]) workflow execution trigger
      true).Comes dialogue)
    (waits : (dialogue.host.engine 0).channel.next? dialogue.reader = none)
    (enough : (dialogue.host.engine 0).channel.published ≤
      (Channel.ofBuffer settings.eventBuffer).capacity) :
    (dialogue.host.engine 0).desk.entries = [] := by
  let host : Host := .new library disk [.new settings []]
  have approver : (Approver.begin host).ComesTo dialogue := by
    clear waits enough
    induction comes with
    | begins => exact Approver.Speaks.begin host workflow execution trigger
    | proceeds _ ih => exact ih.further fun speaks => speaks.proceed
    | reaches _ later ih => exact ih.further fun speaks => speaks.reach later
  obtain ⟨moves, speaks⟩ := approver
  have inside : 0 < host.engines.length := Nat.one_pos
  have fresh : host.engine 0 = .new settings [] := rfl
  obtain ⟨told, missed, accounts⟩ := (Approver.Accounts.begin inside fresh).afterAll moves
  have nothing := accounts.nothing_left ⟨speaks.hand, by rwa [speaks.host, speaks.reader]⟩
    (by rwa [speaks.host])
  rwa [Approver.entries, speaks.host] at nothing

end Workflow.CommandLine
