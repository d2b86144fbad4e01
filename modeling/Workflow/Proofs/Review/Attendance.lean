import Workflow.Proofs.Execution.Asking
import Workflow.Proofs.Review.Removal

/-!
# Boxes that nobody gives up

The box of a step is live while it holds a decision or may still get one. What steps with other keys
do leaves it live, and so does whoever hands in a decision. A step whose box is live is not aborted.
-/
namespace Workflow

namespace Desk

/-- There is a decision in a letter box, or one may still come. -/
def Live (desk : Desk) (ticket : Ticket) : Prop :=
  desk.letter ticket = .awaited ∨ ∃ decision, desk.letter ticket = .answered decision

variable {desk desk' : Desk} {ticket : Ticket}

/-- A box with the same letter is live as well. -/
theorem Live.congr (live : desk.Live ticket) (same : desk'.letter ticket = desk.letter ticket) :
    desk'.Live ticket := by
  rw [Live, same]
  exact live

/-- A live box has not been given up and is not closed. -/
theorem Live.not_forsaken (live : desk.Live ticket) :
    ¬(desk.letter ticket = .abandoned ∨ desk.letter ticket = .closed) := by
  rintro (forsaken | forsaken) <;> simp [Live, forsaken] at live

/-- A live box has been issued. -/
theorem Live.issued (live : desk.Live ticket) : ticket < desk.letters.length :=
  issued_of_letter fun closed => live.not_forsaken (.inr closed)

/-- A decision that is sent to a box leaves every box live. -/
theorem Live.send (live : desk.Live ticket) (other : Ticket) (decision : Decision) :
    (desk.send other decision).2.Live ticket := by
  by_cases own : ticket = other
  · subst own
    by_cases awaited : desk.letter ticket = .awaited
    · exact .inr ⟨decision, letter_send_self awaited decision⟩
    · rw [send_eq_of_ne awaited]
      exact live
  · exact live.congr (desk.letter_send_of_ne own decision)

end Desk

/-- No move in a hall touches the box of somebody who is not in the hall and has a key of his own.
-/
theorem Hall.Step.live_among {hall hall' : Hall} {move : Move} (step : hall.Step move hall')
    {guests : List Seat} (orderly : hall.desk.Orderly (hall.seats ++ guests) hall.hands)
    {guest : Seat} (invited : guest ∈ guests)
    (otherKey : ∀ seat ∈ hall.seats, guest.key ≠ seat.key) (live : hall.desk.Live guest.ticket) :
    hall'.desk.Live guest.ticket := by
  have held : guest ∈ hall.seats ++ guests := List.mem_append_right _ invited
  have sits : ∀ seat, move.discards? = some seat → seat ∈ hall.seats :=
    fun seat discards => step.seat_mem discards
  have changes := step.changes
  generalize hall.desk = desk, hall'.desk = desk' at *
  cases changes with
  | made request => exact live.congr (desk.letter_sitDown_of_lt request live.issued)
  | kept | taken | untouched => exact live
  | expired seat => exact live.congr (orderly.letter_discard held (otherKey seat (sits seat rfl)))
  | left seat | dropped seat =>
    have own := sits seat rfl
    exact live.congr
      (orderly.letter_standUp (List.mem_append_left _ own) held (otherKey seat own))
  | sent ticket decision => exact live.send ticket decision

/-! ## Steps whose box is live -/

namespace Stage

/-- A step that has made its request has a live box as long as it asks, or is on its way to an
outcome that no dropped request gives. -/
inductive Attended (context : Context) (step : Workflow.Step) (input : Value) (seat : Seat)
    (desk : Desk) : Stage → Prop where
  | asks {stage : Stage} (asking : stage.Asking context step input seat)
      (live : desk.Live seat.ticket) : Attended context step input seat desk stage
  /-- It reacts to a decision. -/
  | reacts {stage : Stage} (decision : Decision) (reacting : stage.Reacting step input decision) :
      Attended context step input seat desk stage
  /-- Its notifier has failed. -/
  | fails (error : StepError) (other : ∀ name, error ≠ .humanAborted name) :
      Attended context step input seat desk (.going (.settle (.error error)))
  | failed (error : StepError) (other : ∀ name, error ≠ .humanAborted name) :
      Attended context step input seat desk (.leaving (.error error))

variable {context : Context} {step : Workflow.Step} {input : Value} {seat : Seat}
  {desk desk' : Desk} {environment environment' : Environment} {stage stage' : Stage} {deed : Deed}

/-- A step stays attended to as long as its box stays live. -/
theorem Attended.frame (attended : stage.Attended context step input seat desk)
    (kept : desk.Live seat.ticket → desk'.Live seat.ticket) :
    stage.Attended context step input seat desk' := by
  cases attended with
  | asks asking live => exact .asks asking (kept live)
  | reacts decision reacting => exact .reacts decision reacting
  | fails error other => exact .fails error other
  | failed error other => exact .failed error other

/-- A step that is attended to does not end by being aborted. -/
theorem Attended.outcome_ne {outcome : Outcome}
    (attended : (Stage.leaving outcome).Attended context step input seat desk) (name : String) :
    outcome ≠ .error (.humanAborted name) := by
  cases attended with
  | asks asking => cases asking
  | reacts decision reacting =>
    cases reacting
    exact decision.outcome_ne_aborted step input name
  | failed error other =>
    intro same
    injection same with same
    exact other name same

/-- A step whose notifier fails ends with the error of the notifier. -/
theorem Asking.fails (asking : stage.Asking context step input seat)
    (move : Step seat environment stage deed environment' stage')
    (failure : (∃ action, deed = .lookedUp action none) ∨
      ∃ error, deed = .heard (.returned (.error error))) :
    ∃ error, stage' = .going (.settle (.error error)) ∧ ∀ name, error ≠ .humanAborted name := by
  cases asking with
  | seeking action names =>
    cases move with
    | lookUp =>
      cases found : environment.actions.find? action with
      | none => exact ⟨.unknownAction action, rfl, by simp⟩
      | some registration => simp [found] at failure
  | calling action names call =>
    cases move with
    | @hear _ answer _ ended =>
      rcases answer with (error | value) | _
      · exact ⟨.actionFailed action error, rfl, by simp⟩
      · simp at failure
      · simp at failure
  | announcing | notifying action names registration | ready =>
    cases move
    simp at failure
  | awaiting deadline | expiring => cases move <;> simp at failure

/-- Whatever a step does that is attended to, it stays attended to. -/
theorem Attended.next (attended : stage.Attended context step input seat environment.desk)
    (move : Step seat environment stage deed environment' stage') :
    stage'.Attended context step input seat environment'.desk := by
  cases attended with
  | asks asking live =>
    by_cases failure : (∃ action, deed = .lookedUp action none) ∨
        ∃ error, deed = .heard (.returned (.error error))
    · obtain ⟨error, rfl, other⟩ := asking.fails move failure
      exact .fails error other
    · rw [not_or, not_exists, not_exists] at failure
      have turn := asking.turn move failure.1 failure.2
      cases turn with
      | asks asking same => exact .asks asking (by rwa [same])
      | receives decision letter same => exact .reacts decision .received
      | forsaken letter => exact absurd letter live.not_forsaken
      | expires entry found discarded => exact .reacts .timeout .received
  | reacts decision reacting => exact .reacts decision (reacting.next move).1
  | fails error other =>
    cases move with
    | settle => exact .failed error other
  | failed error other => cases move

end Stage

end Workflow
