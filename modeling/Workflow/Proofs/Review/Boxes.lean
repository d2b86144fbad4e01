import Workflow.Proofs.Review.Delivery

/-!
# Letter boxes over time

A move does one of four things to a letter box: it leaves it alone, it gives it up while nothing is
in it, it puts a decision into it, or it closes it because its step leaves. `Letter.Holds` compares
a box with the decisions that were delivered to it, and every move keeps it: what was delivered
stays in the box until the step has left its seat.
-/
namespace Workflow

/-- What a move does to a letter box. -/
inductive Letter.Changes (ticket : Ticket) : Letter → Move → Letter → Prop where
  | kept (letter : Letter) {move : Move} (undelivered : move.delivered? ticket = none) :
      Changes ticket letter move letter
  /-- Nobody is going to answer it any more. -/
  | abandoned {move : Move} (undelivered : move.delivered? ticket = none) :
      Changes ticket .awaited move .abandoned
  | answered (decision : Decision) :
      Changes ticket .awaited (.sends ticket decision .delivered) (.answered decision)
  /-- The step leaves that looks into it. -/
  | closed (letter : Letter) {move : Move} {seat : Seat} (own : seat.ticket = ticket)
      (leaves : move = .dropped seat ∨ ∃ outcome, move = .leaves seat outcome) :
      Changes ticket letter move .closed

/-- What is in a letter box to which some decisions have been delivered. -/
inductive Letter.Holds : Letter → List Decision → Prop where
  | awaited : Holds .awaited []
  | abandoned : Holds .abandoned []
  | answered (decision : Decision) : Holds (.answered decision) [decision]
  /-- Nobody looks into it any more, and at most one decision has been in it. -/
  | closed {delivered : List Decision} (once : delivered.length ≤ 1) : Holds .closed delivered

namespace Letter

variable {letter letter' : Letter} {ticket : Ticket} {move : Move} {moves : List Move}
  {delivered : List Decision}

/-- No more than one decision is delivered to a box. -/
theorem Holds.length_le (holds : letter.Holds delivered) : delivered.length ≤ 1 := by
  cases holds with
  | closed once => exact once
  | _ => simp

/-- Nothing has been delivered to a box that is empty or was given up. -/
theorem Holds.eq_nil (holds : letter.Holds delivered)
    (unanswered : letter = .awaited ∨ letter = .abandoned) : delivered = [] := by
  rcases unanswered with rfl | rfl <;> cases holds <;> rfl

/-- A decision that is in a box is all that has been delivered to it. -/
theorem Holds.of_answered {decision : Decision} (holds : (Letter.answered decision).Holds delivered) :
    delivered = [decision] := by
  cases holds
  rfl

/-- Every move keeps account of what was delivered to a box. -/
theorem Changes.holds (changes : Letter.Changes ticket letter move letter')
    (holds : letter.Holds (deliveries ticket moves)) :
    letter'.Holds (deliveries ticket (moves ++ [move])) := by
  have same : move.delivered? ticket = none →
      deliveries ticket (moves ++ [move]) = deliveries ticket moves := by
    intro undelivered
    rw [deliveries_concat, undelivered, Option.toList_none, List.append_nil]
  cases changes with
  | kept _ undelivered =>
    rw [same undelivered]
    exact holds
  | abandoned undelivered =>
    rw [same undelivered, holds.eq_nil (.inl rfl)]
    exact .abandoned
  | answered decision =>
    rw [deliveries_concat, holds.eq_nil (.inl rfl)]
    simpa [Move.delivered?] using .answered decision
  | closed _ own leaves =>
    have undelivered : move.delivered? ticket = none := by
      rcases leaves with rfl | ⟨outcome, rfl⟩ <;> rfl
    rw [same undelivered]
    exact .closed holds.length_le

end Letter

namespace Desk

variable {ticket : Ticket}

/-- Giving up a box is felt in no other box, and only in one that is empty. -/
theorem letter_abandon_cases (desk : Desk) (ticket other : Ticket) :
    (desk.abandon ticket).letter other = desk.letter other ∨
      (desk.letter other = .awaited ∧ (desk.abandon ticket).letter other = .abandoned) := by
  by_cases same : other = ticket
  · subst same
    by_cases awaited : desk.letter other = .awaited
    · exact .inr ⟨awaited, letter_abandon_self awaited⟩
    · left
      rw [abandon_of_ne awaited]
  · exact .inl (desk.letter_abandon_of_ne same)

/-- Discarding a request gives up a box at most. -/
theorem letter_discard_cases (desk : Desk) (key : ReviewKey) (ticket : Ticket) :
    (desk.discard key).letter ticket = desk.letter ticket ∨
      (desk.letter ticket = .awaited ∧ (desk.discard key).letter ticket = .abandoned) := by
  unfold discard
  cases desk.find? key with
  | none => exact .inl rfl
  | some entry => exact (desk.without key).letter_abandon_cases entry.ticket ticket

/-- A step that leaves its seat gives up boxes of others at most. -/
theorem letter_standUp_cases {seat : Seat} (desk : Desk) (notOwn : ticket ≠ seat.ticket) :
    (desk.standUp seat).letter ticket = desk.letter ticket ∨
      (desk.letter ticket = .awaited ∧ (desk.standUp seat).letter ticket = .abandoned) := by
  have discarded := desk.letter_discard_cases seat.key ticket
  unfold standUp
  rw [letter_setLetter_of_ne _ notOwn]
  cases seat.replaced with
  | none => exact discarded
  | some replaced =>
    have given := (desk.discard seat.key).letter_abandon_cases replaced ticket
    rcases discarded with same | ⟨awaited, abandoned⟩
    · rwa [same] at given
    · rcases given with same | ⟨still, -⟩
      · exact .inr ⟨awaited, same.trans abandoned⟩
      · rw [abandoned] at still
        cases still

end Desk

namespace Hall

/-- Every move does one of these things to a box that has been issued. -/
theorem Changes.letter {desk desk' : Desk} {move : Move} {ticket : Ticket}
    (changes : Changes desk move desk')
    (issued : ticket < desk.letters.length) :
    Letter.Changes ticket (desk.letter ticket) move (desk'.letter ticket) := by
  have given : ∀ {letter letter' : Letter}, move.delivered? ticket = none →
      (letter' = letter ∨ (letter = .awaited ∧ letter' = .abandoned)) →
      Letter.Changes ticket letter move letter' := by
    rintro letter letter' undelivered (rfl | ⟨rfl, rfl⟩)
    · exact .kept _ undelivered
    · exact .abandoned undelivered
  cases changes with
  | made request =>
    rw [Desk.letter_sitDown_of_lt _ request issued]
    exact .kept _ rfl
  | kept | untouched | taken => exact .kept _ rfl
  | expired seat => exact given rfl (desk.letter_discard_cases seat.key ticket)
  | left seat outcome =>
    by_cases own : ticket = seat.ticket
    · rw [own, Desk.letter_standUp_self]
      exact .closed _ rfl (.inr ⟨outcome, rfl⟩)
    · exact given rfl (desk.letter_standUp_cases own)
  | dropped seat =>
    by_cases own : ticket = seat.ticket
    · rw [own, Desk.letter_standUp_self]
      exact .closed _ rfl (.inl rfl)
    · exact given rfl (desk.letter_standUp_cases own)
  | sent other decision =>
    by_cases awaited : desk.letter other = .awaited
    · have delivered := (desk.send_delivered_iff other decision).mpr awaited
      rw [delivered]
      by_cases same : ticket = other
      · subst same
        rw [awaited, Desk.letter_send_self awaited]
        exact .answered decision
      · rw [desk.letter_send_of_ne same]
        exact .kept _ (by simp [Move.delivered?, Ne.symm same])
    · rw [Desk.send_eq_of_ne awaited]
      exact .kept _ rfl

end Hall

end Workflow
