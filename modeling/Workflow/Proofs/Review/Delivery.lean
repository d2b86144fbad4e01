import Workflow.Proofs.Execution.Asking
import Workflow.Proofs.Review.View

/-!
# Exactly one side decides

A request is decided either by the first decision that is sent to its box or by the limit of its
step, never by both. `Hall.Race` is any order of moves in which nobody disturbs the step: it is not
dropped, its notifier does not fail, and no other request has its key while it lasts.

`Hall.Situation` is the invariant of such a race. It goes from asking to reacting, and from there to
the end, and the decision to which the step reacts never changes.
-/
namespace Workflow

/-- The decision that a move has delivered to a box. -/
def Move.delivered? (ticket : Ticket) : Move → Option Decision
  | .sends other decision .delivered => if other = ticket then some decision else none
  | _ => none

/-- The decisions that were delivered to a box. -/
def deliveries (ticket : Ticket) (moves : List Move) : List Decision :=
  moves.filterMap (Move.delivered? ticket)

/-- The move is a step in slow motion of the step in a seat. -/
def Move.isOwn (seat : Seat) : Move → Bool
  | .does other _ => other = seat
  | _ => false

/-- The number of steps in slow motion that the step in a seat has done. -/
def turns (seat : Seat) (moves : List Move) : Nat := moves.countP (Move.isOwn seat)

/-- The last move delivers what it delivers, after all earlier deliveries. -/
theorem deliveries_concat (ticket : Ticket) (moves : List Move) (move : Move) :
    deliveries ticket (moves ++ [move]) =
      deliveries ticket moves ++ (move.delivered? ticket).toList := by
  rw [deliveries, List.filterMap_append]
  cases delivered : move.delivered? ticket <;> simp [deliveries, delivered]

/-- A deed of the step is one more of its turns. -/
theorem turns_concat_own (seat : Seat) (moves : List Move) (deed : Deed) :
    turns seat (moves ++ [.does seat deed]) = turns seat moves + 1 := by
  simp [turns, Move.isOwn]

/-- What others do is no turn of the step. -/
theorem turns_concat_other {seat : Seat} {move : Move} (moves : List Move)
    (notDoes : ∀ deed, move ≠ .does seat deed) :
    turns seat (moves ++ [move]) = turns seat moves := by
  cases move with
  | does other deed =>
    have different : other ≠ seat := by
      rintro rfl
      exact notDoes deed rfl
    simp [turns, Move.isOwn, different]
  | _ => simp [turns, Move.isOwn]

namespace Hall

/-- A move does not disturb a step: it does not drop it, it is no failure of its notifier, and it
makes no other request with its key as long as the step keeps its seat. -/
structure Spares (hall : Hall) (seat : Seat) (move : Move) : Prop where
  /-- The step is not dropped. -/
  notDropped : move ≠ .dropped seat
  /-- The action that notifies the human is found. -/
  found : ∀ action, move ≠ .does seat (.lookedUp action none)
  notified : ∀ error, move ≠ .does seat (.heard (.returned (.error error)))
  /-- No other request has the key of the step. -/
  keyFree : seat ∈ hall.seats → ∀ other, move = .sits other → other.key ≠ seat.key

/-- Any moves in order that do not disturb a step. -/
inductive Race (seat : Seat) (start : Hall) : List Move → Hall → Prop where
  | here : Race seat start [] start
  | next {moves : List Move} {move : Move} {hall hall' : Hall} (race : Race seat start moves hall)
      (step : hall.Step move hall') (spares : hall.Spares seat move) :
      Race seat start (moves ++ [move]) hall'

/-- A request has been decided: by the only decision that was delivered, or else by the limit. -/
def Decided (seat : Seat) (moves : List Move) (decision : Decision) : Prop :=
  (deliveries seat.ticket moves = [decision] ∧ .does seat (.expired true) ∉ moves) ∨
    (deliveries seat.ticket moves = [] ∧ decision = .timeout ∧
      .does seat (.expired true) ∈ moves)

/-- What has become of a step and its request after some moves. -/
inductive Situation (context : Context) (step : Workflow.Step) (input : Value) (seat : Seat)
    (hall : Hall) (moves : List Move) : Prop where
  /-- The step asks, and its request is on the desk or in somebody's hands. -/
  | asked {stage : Stage} (alone : hall.Alone seat) (sits : ⟨seat, stage⟩ ∈ hall.sitters)
      (asking : stage.Asking context step input seat)
      (letter : hall.desk.letter seat.ticket = .awaited)
      (place : hall.Lies seat ∨ seat.ticket ∈ hall.hands)
      (outrun : stage = .awaiting none (afterDecision step input) → step.timeout.isSome →
        seat.ticket ∈ hall.hands)
      (undelivered : deliveries seat.ticket moves = [])
      (unexpired : .does seat (.expired true) ∉ moves)
      (stays : ∀ outcome, .leaves seat outcome ∉ moves)
      (bound : turns seat moves + stage.rank ≤ 10)
  /-- The step asks, and a decision is in its box. -/
  | answered {stage : Stage} (decision : Decision) (alone : hall.Alone seat)
      (sits : ⟨seat, stage⟩ ∈ hall.sitters) (asking : stage.Asking context step input seat)
      (letter : hall.desk.letter seat.ticket = .answered decision)
      (delivered : deliveries seat.ticket moves = [decision])
      (unexpired : .does seat (.expired true) ∉ moves)
      (stays : ∀ outcome, .leaves seat outcome ∉ moves)
      (bound : turns seat moves + stage.rank ≤ 10)
  /-- The step reacts to a decision. -/
  | reacting {stage : Stage} (decision : Decision) (alone : hall.Alone seat)
      (sits : ⟨seat, stage⟩ ∈ hall.sitters) (reacts : stage.Reacting step input decision)
      (settled : hall.desk.letter seat.ticket ≠ .awaited)
      (decided : Decided seat moves decision) (stays : ∀ outcome, .leaves seat outcome ∉ moves)
      (bound : turns seat moves + stage.rank ≤ 10)
  /-- The step has ended. -/
  | ended (decision : Decision) (gone : ∀ other ∈ hall.seats, other.ticket ≠ seat.ticket)
      (issued : seat.ticket < hall.desk.letters.length)
      (settled : hall.desk.letter seat.ticket ≠ .awaited)
      (decided : Decided seat moves decision)
      (ends : ∀ outcome, .leaves seat outcome ∈ moves → outcome = decision.outcome step input)
      (bound : turns seat moves ≤ 10)

/-! ## One more move -/

variable {context : Context} {step : Workflow.Step} {input : Value} {seat : Seat}
  {hall hall' : Hall} {moves : List Move} {move : Move} {decision : Decision}

/-- What has not happened in some moves, and not in one more, has not happened in all of them. -/
theorem not_mem_concat {other : Move} (before : other ∉ moves) (now : move ≠ other) :
    other ∉ moves ++ [move] := by
  intro member
  rcases List.mem_append.mp member with earlier | last
  · exact before earlier
  · exact now (List.mem_singleton.mp last).symm

/-- A step that has not left its seat, and does not leave it now, has not left it. -/
theorem stays_concat (stays : ∀ outcome, .leaves seat outcome ∉ moves)
    (now : ∀ outcome, move ≠ .leaves seat outcome) :
    ∀ outcome, .leaves seat outcome ∉ moves ++ [move] :=
  fun outcome => not_mem_concat (stays outcome) (now outcome)

/-- A step in slow motion uses up at least one of those that are left. -/
theorem turns_concat_le {stage stage' : Stage} (bound : turns seat moves + stage.rank ≤ 10)
    (closer : stage'.rank < stage.rank) (deed : Deed) :
    turns seat (moves ++ [.does seat deed]) + stage'.rank ≤ 10 := by
  rw [turns_concat_own]
  omega

/-- Nothing is delivered to a box that is settled. -/
theorem Changes.undelivered {desk desk' : Desk} (changes : Changes desk move desk')
    {ticket : Ticket} (settled : desk.letter ticket ≠ .awaited) :
    move.delivered? ticket = none := by
  cases changes with
  | sent other decision =>
    by_cases same : other = ticket
    · rw [Desk.send_eq_of_ne (same ▸ settled)]
      rfl
    · cases (desk.send other decision).1 <;> simp [Move.delivered?, same]
  | _ => rfl

/-- What has been decided stays decided when nothing more is delivered and the limit is not over. -/
theorem Decided.more (decided : Decided seat moves decision)
    (undelivered : move.delivered? seat.ticket = none)
    (unexpired : move ≠ .does seat (.expired true)) : Decided seat (moves ++ [move]) decision := by
  have same : deliveries seat.ticket (moves ++ [move]) = deliveries seat.ticket moves := by
    rw [deliveries_concat, undelivered, Option.toList_none, List.append_nil]
  rcases decided with ⟨delivered, before⟩ | ⟨delivered, timeout, before⟩
  · exact .inl ⟨same.trans delivered, not_mem_concat before unexpired⟩
  · exact .inr ⟨same.trans delivered, timeout, List.mem_append_left _ before⟩

/-- Whoever does something holds a seat. -/
theorem Step.does_mem {deed : Deed} (step : hall.Step (.does seat deed) hall') :
    seat ∈ hall.seats := by
  cases step with
  | does before after hands step => simp [Hall.seats]

/-- Whoever leaves has held a seat. -/
theorem Step.leaves_mem {outcome : Outcome} (step : hall.Step (.leaves seat outcome) hall') :
    seat ∈ hall.seats := by
  cases step with
  | leaves => simp [Hall.seats]

/-- A step that has ended has ended for good. -/
theorem next_of_over (gone : ∀ other ∈ hall.seats, other.ticket ≠ seat.ticket)
    (issued : seat.ticket < hall.desk.letters.length)
    (settled : hall.desk.letter seat.ticket ≠ .awaited) (decided : Decided seat moves decision)
    (ends : ∀ outcome, .leaves seat outcome ∈ moves → outcome = decision.outcome step input)
    (bound : turns seat moves ≤ 10) (next : hall.Step move hall') :
    Situation context step input seat hall' (moves ++ [move]) := by
  have absent : seat ∉ hall.seats := fun held => gone seat held rfl
  have notDoes : ∀ deed, move ≠ .does seat deed := by
    rintro deed rfl
    exact absent next.does_mem
  have issued' := Nat.lt_of_lt_of_le issued next.changes.length_le
  have settled' := next.changes.settled issued settled
  have decided' := decided.more (next.changes.undelivered settled) (notDoes _)
  refine .ended decision (next.unwatched issued gone) issued' settled' decided' ?_ ?_
  · intro outcome member
    rcases List.mem_append.mp member with before | last
    · exact ends outcome before
    · obtain rfl := List.mem_singleton.mp last
      exact absurd next.leaves_mem absent
  · rw [turns_concat_other moves notDoes]
    exact bound

/-- What happens to a step that reacts to a decision. -/
theorem next_of_reacting {stage : Stage} (alone : hall.Alone seat)
    (sits : ⟨seat, stage⟩ ∈ hall.sitters) (reacts : stage.Reacting step input decision)
    (settled : hall.desk.letter seat.ticket ≠ .awaited) (decided : Decided seat moves decision)
    (stays : ∀ outcome, .leaves seat outcome ∉ moves) (bound : turns seat moves + stage.rank ≤ 10)
    (orderly : hall.Orderly) (next : hall.Step move hall') (spares : hall.Spares seat move) :
    Situation context step input seat hall' (moves ++ [move]) := by
  have issued := orderly.issued seat alone.held
  have keyFree := spares.keyFree alone.held
  have settled' := next.changes.settled issued settled
  have undelivered := next.changes.undelivered settled
  have unmoved : ⟨seat, stage⟩ ∈ hall'.sitters → (∀ deed, move ≠ .does seat deed) →
      (∀ outcome, move ≠ .leaves seat outcome) →
      Situation context step input seat hall' (moves ++ [move]) := by
    intro sits' notDoes notLeaves
    have decided' := decided.more undelivered (notDoes _)
    refine .reacting decision (next.alone alone keyFree sits') sits' reacts settled' decided'
      (stays_concat stays notLeaves) ?_
    rw [turns_concat_other moves notDoes]
    exact bound
  cases next.view orderly alone spares.notDropped keyFree with
  | @own stage₀ stage' deed sits₀ turn sits' hands =>
    obtain rfl := orderly.stage_eq sits sits₀
    have closer := reacts.rank_lt turn
    obtain ⟨reacts', -, rfl⟩ := reacts.next turn
    have decided' := decided.more undelivered (by simp)
    exact .reacting decision (next.alone alone keyFree sits') sits' reacts' settled' decided'
      (stays_concat stays (by simp)) (turns_concat_le bound closer _)
  | @left outcome sits₀ desk gone =>
    have leaving := orderly.stage_eq sits sits₀
    subst leaving
    have ending : outcome = decision.outcome step input := by
      cases reacts
      rfl
    have issued' := Nat.lt_of_lt_of_le issued next.changes.length_le
    have decided' := decided.more undelivered (by simp)
    refine .ended decision gone issued' settled' decided' ?_ ?_
    · intro other member
      rcases List.mem_append.mp member with before | last
      · exact absurd before (stays other)
      · injection List.mem_singleton.mp last with _ same
        exact same.trans ending
    · rw [turns_concat_other moves (by simp)]
      omega
  | taken after ticket => exact unmoved (after ▸ sits) (by simp) (by simp)
  | sent answer held desk same => exact unmoved (same ▸ sits) (by simp) (by simp)
  | other undisturbed _ notDoes notLeaves notSends =>
    exact unmoved (undisturbed.sitters stage sits) notDoes notLeaves

/-! ### A step with a decision in its box -/

section Answered

variable (alone : hall.Alone seat) (letter : hall.desk.letter seat.ticket = .answered decision)
  (delivered : deliveries seat.ticket moves = [decision])
  (unexpired : .does seat (.expired true) ∉ moves)
  (stays : ∀ outcome, .leaves seat outcome ∉ moves) (orderly : hall.Orderly)

include alone letter delivered unexpired stays orderly

/-- The step goes on asking, or it finds the decision. -/
theorem turn_of_answered {stage' : Stage} {deed : Deed} (alone' : hall'.Alone seat)
    (sits' : ⟨seat, stage'⟩ ∈ hall'.sitters)
    (turn : Stage.Turn context step input seat hall.environment hall'.environment stage' deed)
    (bound' : turns seat (moves ++ [.does seat deed]) + stage'.rank ≤ 10) :
    Situation context step input seat hall' (moves ++ [.does seat deed]) := by
  have stays' : ∀ outcome, .leaves seat outcome ∉ moves ++ [.does seat deed] :=
    stays_concat stays (by simp)
  have delivered' : deliveries seat.ticket (moves ++ [.does seat deed]) = [decision] := by
    rw [deliveries_concat, delivered]
    rfl
  cases turn with
  | asks asking' desk unexpired' outrun =>
    have same : hall'.desk.letter seat.ticket = .answered decision := by
      rw [Hall.desk, desk]
      exact letter
    exact .answered decision alone' sits' asking' same delivered'
      (not_mem_concat unexpired (by simp [unexpired'])) stays' bound'
  | receives received letter' desk =>
    have same : received = decision := by
      have both := letter'.symm.trans letter
      injection both
    subst same
    have settled : hall'.desk.letter seat.ticket ≠ .awaited := by
      rw [Hall.desk, desk]
      simp [letter']
    exact .reacting received alone' sits' .received settled
      (.inl ⟨delivered', not_mem_concat unexpired (by simp)⟩) stays' bound'
  | forsaken letter' =>
    rw [Hall.desk] at letter
    simp [letter] at letter'
  | expires entry found desk =>
    -- The request under the key would be the step's own, whose box is empty.
    obtain ⟨member, own⟩ := orderly.own_of_find? alone found
    have awaited := orderly.awaited entry member
    rw [own, letter] at awaited
    cases awaited

/-- What happens to a step that asks and has a decision in its box. -/
theorem next_of_answered {stage : Stage} (sits : ⟨seat, stage⟩ ∈ hall.sitters)
    (asking : stage.Asking context step input seat) (bound : turns seat moves + stage.rank ≤ 10)
    (next : hall.Step move hall') (spares : hall.Spares seat move) :
    Situation context step input seat hall' (moves ++ [move]) := by
  have keyFree := spares.keyFree alone.held
  have unmoved : ⟨seat, stage⟩ ∈ hall'.sitters →
      hall'.desk.letter seat.ticket = hall.desk.letter seat.ticket →
      (∀ deed, move ≠ .does seat deed) → (∀ outcome, move ≠ .leaves seat outcome) →
      Situation context step input seat hall' (moves ++ [move]) := by
    intro sits' same notDoes notLeaves
    have undelivered : move.delivered? seat.ticket = none :=
      next.changes.undelivered (by simp [letter])
    have delivered' : deliveries seat.ticket (moves ++ [move]) = [decision] := by
      rw [deliveries_concat, undelivered, delivered]
      rfl
    exact .answered decision (next.alone alone keyFree sits') sits' asking (same.trans letter)
      delivered' (not_mem_concat unexpired (notDoes _)) (stays_concat stays notLeaves)
      (turns_concat_other moves notDoes ▸ bound)
  cases next.view orderly alone spares.notDropped keyFree with
  | @own stage₀ stage' deed sits₀ turn sits' hands =>
    obtain rfl := orderly.stage_eq sits sits₀
    have alone' := next.alone alone keyFree sits'
    have comesTo := asking.turn turn (fun action same => spares.found action (same ▸ rfl))
      (fun error same => spares.notified error (same ▸ rfl))
    exact turn_of_answered alone letter delivered unexpired stays orderly alone' sits' comesTo
      (turns_concat_le bound (asking.rank_lt turn) deed)
  | left sits₀ desk gone =>
    obtain rfl := orderly.stage_eq sits sits₀
    cases asking
  | taken after ticket =>
    refine unmoved (after ▸ sits) ?_ (by simp) (by simp)
    rw [after, desk_take, Desk.letter_without]
  | sent answer held desk same =>
    refine unmoved (same ▸ sits) ?_ (by simp) (by simp)
    rw [desk, Desk.send_eq_of_ne (by simp [letter])]
  | other undisturbed _ notDoes notLeaves notSends =>
    exact unmoved (undisturbed.sitters stage sits) undisturbed.letter notDoes notLeaves

end Answered

/-! ### A step whose box is empty -/

/-- A move that sends nothing to a box delivers nothing to it. -/
theorem undelivered_of_not_sends {ticket : Ticket}
    (notSends : ∀ decision submission, move ≠ .sends ticket decision submission) :
    move.delivered? ticket = none := by
  cases move with
  | sends other decision submission =>
    have different : other ≠ ticket := by
      rintro rfl
      exact notSends decision submission rfl
    cases submission <;> simp [Move.delivered?, different]
  | _ => rfl

/-- Where a request lies or is held before it is taken, it is held afterwards. -/
theorem mem_hands_take (alone : hall.Alone seat) (orderly : hall.Orderly)
    (place : hall.Lies seat ∨ seat.ticket ∈ hall.hands) :
    seat.ticket ∈ (hall.take seat.key).hands := by
  rw [take, Desk.take_eq]
  rcases place with lies | held
  · obtain ⟨entry, found, own⟩ := orderly.key_eq_of_lies alone.held lies
    simp [found, own]
  · exact List.mem_append_right _ held

section Asked

variable (alone : hall.Alone seat) (letter : hall.desk.letter seat.ticket = .awaited)
  (place : hall.Lies seat ∨ seat.ticket ∈ hall.hands)
  (undelivered : deliveries seat.ticket moves = [])
  (unexpired : .does seat (.expired true) ∉ moves)
  (stays : ∀ outcome, .leaves seat outcome ∉ moves) (orderly : hall.Orderly)

include alone letter place undelivered unexpired stays orderly

/-- The step goes on asking, or its limit is over and it discards its request. -/
theorem turn_of_asked {stage' : Stage} {deed : Deed} (alone' : hall'.Alone seat)
    (sits' : ⟨seat, stage'⟩ ∈ hall'.sitters) (hands : hall'.hands = hall.hands)
    (turn : Stage.Turn context step input seat hall.environment hall'.environment stage' deed)
    (bound' : turns seat (moves ++ [.does seat deed]) + stage'.rank ≤ 10) :
    Situation context step input seat hall' (moves ++ [.does seat deed]) := by
  have stays' : ∀ outcome, .leaves seat outcome ∉ moves ++ [.does seat deed] :=
    stays_concat stays (by simp)
  have undelivered' : deliveries seat.ticket (moves ++ [.does seat deed]) = [] := by
    rw [deliveries_concat, undelivered]
    rfl
  cases turn with
  | asks asking' desk unexpired' missing =>
    have place' : hall'.Lies seat ∨ seat.ticket ∈ hall'.hands := by
      rw [Lies, Hall.desk, desk, hands]
      exact place
    refine .asked alone' sits' asking' ?_ place' ?_ undelivered'
      (not_mem_concat unexpired (by simp [unexpired'])) stays' bound'
    · rw [Hall.desk, desk]
      exact letter
    · intro waits limited
      rw [hands]
      rcases place with lies | held
      · -- Its request would be found under its key.
        obtain ⟨entry, found, -⟩ := orderly.key_eq_of_lies alone.held lies
        have nothing := missing waits limited
        rw [Hall.desk, nothing] at found
        cases found
      · exact held
  | receives received letter' desk =>
    have both := letter'.symm.trans letter
    cases both
  | forsaken letter' =>
    rw [Hall.desk] at letter
    simp [letter] at letter'
  | expires entry found desk =>
    obtain ⟨member, own⟩ := orderly.own_of_find? alone found
    have abandoned : hall'.desk.letter seat.ticket = .abandoned := by
      have awaited := orderly.awaited entry member
      rw [Hall.desk, desk, ← own]
      exact Desk.letter_discard_self found awaited
    exact .reacting .timeout alone' sits' .received (by simp [abandoned])
      (.inr ⟨undelivered', rfl, by simp⟩) stays' bound'

/-- What happens to a step that asks and whose box is empty. -/
theorem next_of_asked {stage : Stage} (sits : ⟨seat, stage⟩ ∈ hall.sitters)
    (asking : stage.Asking context step input seat)
    (outrun : stage = .awaiting none (afterDecision step input) → step.timeout.isSome →
      seat.ticket ∈ hall.hands)
    (bound : turns seat moves + stage.rank ≤ 10) (next : hall.Step move hall')
    (spares : hall.Spares seat move) :
    Situation context step input seat hall' (moves ++ [move]) := by
  have keyFree := spares.keyFree alone.held
  have unmoved : ⟨seat, stage⟩ ∈ hall'.sitters → hall'.desk.letter seat.ticket = .awaited →
      (hall'.Lies seat ∨ seat.ticket ∈ hall'.hands) →
      (stage = .awaiting none (afterDecision step input) → step.timeout.isSome →
        seat.ticket ∈ hall'.hands) →
      (∀ deed, move ≠ .does seat deed) → (∀ outcome, move ≠ .leaves seat outcome) →
      (∀ decision submission, move ≠ .sends seat.ticket decision submission) →
      Situation context step input seat hall' (moves ++ [move]) := by
    intro sits' letter' place' outrun' notDoes notLeaves notSends
    have undelivered' : deliveries seat.ticket (moves ++ [move]) = [] := by
      rw [deliveries_concat, undelivered, undelivered_of_not_sends notSends]
      rfl
    exact .asked (next.alone alone keyFree sits') sits' asking letter' place' outrun' undelivered'
      (not_mem_concat unexpired (notDoes _)) (stays_concat stays notLeaves)
      (turns_concat_other moves notDoes ▸ bound)
  cases next.view orderly alone spares.notDropped keyFree with
  | @own stage₀ stage' deed sits₀ turn sits' hands =>
    obtain rfl := orderly.stage_eq sits sits₀
    have alone' := next.alone alone keyFree sits'
    have comesTo := asking.turn turn (fun action same => spares.found action (same ▸ rfl))
      (fun error same => spares.notified error (same ▸ rfl))
    exact turn_of_asked alone letter place undelivered unexpired stays orderly alone' sits' hands
      comesTo (turns_concat_le bound (asking.rank_lt turn) deed)
  | left sits₀ desk gone =>
    obtain rfl := orderly.stage_eq sits sits₀
    cases asking
  | taken after ticket =>
    have inHands : seat.ticket ∈ hall'.hands := after ▸ mem_hands_take alone orderly place
    have letter' : hall'.desk.letter seat.ticket = .awaited := by
      rw [after, desk_take, Desk.letter_without]
      exact letter
    exact unmoved (after ▸ sits) letter' (.inr inHands) (fun _ _ => inHands) (by simp) (by simp)
      (by simp)
  | sent answer held desk same =>
    have sits' : ⟨seat, stage⟩ ∈ hall'.sitters := same ▸ sits
    have accepted := (Desk.send_delivered_iff _ _ answer).mpr letter
    refine .answered answer (next.alone alone keyFree sits') sits' asking ?_ ?_
      (not_mem_concat unexpired (by simp)) (stays_concat stays (by simp)) ?_
    · rw [desk]
      exact Desk.letter_send_self letter answer
    · rw [deliveries_concat, undelivered, accepted]
      simp [Move.delivered?]
    · rw [turns_concat_other moves (by simp)]
      exact bound
  | other undisturbed _ notDoes notLeaves notSends =>
    exact unmoved (undisturbed.sitters stage sits) (undisturbed.letter.trans letter)
      (place.imp undisturbed.lies undisturbed.hands)
      (fun waits limited => undisturbed.hands (outrun waits limited)) notDoes notLeaves notSends

end Asked

/-- Every move that does not disturb the step leads from one situation to another. -/
theorem Situation.next (situation : Situation context step input seat hall moves)
    (orderly : hall.Orderly) (next : hall.Step move hall') (spares : hall.Spares seat move) :
    Situation context step input seat hall' (moves ++ [move]) := by
  cases situation with
  | asked alone sits asking letter place outrun undelivered unexpired stays bound =>
    exact next_of_asked alone letter place undelivered unexpired stays orderly sits asking outrun
      bound next spares
  | answered decision alone sits asking letter delivered unexpired stays bound =>
    exact next_of_answered alone letter delivered unexpired stays orderly sits asking bound next
      spares
  | reacting decision alone sits reacts settled decided stays bound =>
    exact next_of_reacting alone sits reacts settled decided stays bound orderly next spares
  | ended decision gone issued settled decided ends bound =>
    exact next_of_over gone issued settled decided ends bound next

/-! ## The whole race -/

/-- A step that has just made its request asks, if no other step has its key. -/
theorem situation_sit (hall : Hall) (context : Context) (step : Workflow.Step) (input : Value)
    (free : ∀ other ∈ hall.seats, other.key ≠ (requestOf context step input).key) :
    Situation context step input (hall.seatFor context step input)
      (hall.sit context step input) [] := by
  have key : (hall.seatFor context step input).key = (requestOf context step input).key := rfl
  have ticket : (hall.seatFor context step input).ticket = hall.desk.letters.length := rfl
  refine .asked ⟨List.mem_cons_self, ?_⟩ List.mem_cons_self (.announcing) ?_
    (.inl ⟨⟨requestOf context step input, hall.desk.letters.length⟩, ?_, rfl⟩) ?_ rfl
    List.not_mem_nil (fun _ => List.not_mem_nil) ?_
  · intro other held same
    rcases List.mem_cons.mp held with rfl | held
    · rfl
    · exact absurd (same.trans key) (free other held)
  · rw [desk_sit, ticket, Desk.letter_sitDown_self]
  · rw [desk_sit, Desk.mem_sitDown]
    exact .inr rfl
  · intro waits
    cases waits
  · rw [turns, List.countP_nil, Nat.zero_add]
    exact Stage.rank_le _

/-- In every race the desk stays orderly and the step is in one of the situations. -/
theorem Race.situation {start : Hall} (orderly : start.Orderly) {seat : Seat}
    (begun : Situation context step input seat start []) (race : start.Race seat moves hall) :
    hall.Orderly ∧ Situation context step input seat hall moves := by
  induction race with
  | here => exact ⟨orderly, begun⟩
  | next _ next spares ih => exact ⟨next.orderly ih.1, ih.2.next ih.1 next spares⟩

/-- What a step that asks may be waiting for. -/
inductive Expects (step : Workflow.Step) (seat : Seat) (hall : Hall) (moves : List Move) :
    Stage → Prop where
  | notifier (call : Call) (next : CallEnd → Process)
      (pending : hall.environment.callEnd? call = none) :
      Expects step seat hall moves (.calling call next)
  /-- Its request is on the desk, and its limit, if there is one, is not over. -/
  | decision (deadline : Option Alarm) (next : Option Decision → Process)
      (lies : hall.Lies seat) (undelivered : deliveries seat.ticket moves = [])
      (limited : step.timeout.isSome → deadline.isSome)
      (inTime : deadline.any hall.environment.hasRung = false) :
      Expects step seat hall moves (.awaiting deadline next)
  /-- Somebody has taken its request and has not sent his decision, which will be delivered. -/
  | answer (deadline : Option Alarm) (next : Option Decision → Process)
      (held : seat.ticket ∈ hall.hands) (undelivered : deliveries seat.ticket moves = [])
      (letter : hall.desk.letter seat.ticket = .awaited) :
      Expects step seat hall moves (.awaiting deadline next)

/-- What a step can do in its stage it can do in the hall. -/
theorem step_of_stage {hall : Hall} {seat : Seat} {stage stage' : Stage} {deed : Deed}
    {environment' : Environment} (sits : ⟨seat, stage⟩ ∈ hall.sitters)
    (step : Stage.Step seat hall.environment stage deed environment' stage') :
    ∃ hall', hall.Step (.does seat deed) hall' := by
  obtain ⟨environment, sitters, hands⟩ := hall
  obtain ⟨before, after, rfl⟩ := List.append_of_mem sits
  exact ⟨_, .does before after hands step⟩

/-- A step that has an outcome can leave the hall. -/
theorem step_of_leaving {hall : Hall} {seat : Seat} {outcome : Outcome}
    (sits : ⟨seat, .leaving outcome⟩ ∈ hall.sitters) :
    ∃ hall', hall.Step (.leaves seat outcome) hall' := by
  obtain ⟨environment, sitters, hands⟩ := hall
  obtain ⟨before, after, rfl⟩ := List.append_of_mem sits
  exact ⟨_, .leaves environment before after hands seat outcome⟩

/-- A step that asks can go on, or end, or waits for something that has not come. -/
theorem Situation.progress (situation : Situation context step input seat hall moves)
    (orderly : hall.Orderly) {stage : Stage} (sits : ⟨seat, stage⟩ ∈ hall.sitters) :
    (∃ deed hall', hall.Step (.does seat deed) hall') ∨
      (∃ outcome hall', hall.Step (.leaves seat outcome) hall') ∨
      hall.Expects step seat moves stage := by
  cases situation with
  | @asked stage₀ alone sits₀ asking letter place outrun undelivered unexpired stays bound =>
    obtain rfl := orderly.stage_eq sits sits₀
    rcases asking.progress hall.environment with waits | ⟨deed, _, _, turn⟩
    · refine .inr (.inr ?_)
      cases waits with
      | forNotifier call next pending => exact .notifier call next pending
      | forDecision deadline next empty inTime =>
        cases asking
        by_cases held : seat.ticket ∈ hall.hands
        · exact .answer deadline _ held undelivered letter
        · refine .decision deadline _ (place.resolve_right held) undelivered ?_ inTime
          intro limited
          by_contra unlimited
          have none := Option.not_isSome_iff_eq_none.mp unlimited
          exact held (outrun (by rw [none]) limited)
    · exact .inl ⟨deed, step_of_stage sits turn⟩
  | @answered stage₀ decision alone sits₀ asking letter delivered unexpired stays bound =>
    obtain rfl := orderly.stage_eq sits sits₀
    rcases asking.progress hall.environment with waits | ⟨deed, _, _, turn⟩
    · cases waits with
      | forNotifier call next pending => exact .inr (.inr (.notifier call next pending))
      | forDecision deadline next empty inTime =>
        have both := letter.symm.trans empty
        cases both
    · exact .inl ⟨deed, step_of_stage sits turn⟩
  | @reacting stage₀ decision alone sits₀ reacts settled decided stays bound =>
    obtain rfl := orderly.stage_eq sits sits₀
    rcases reacts.progress hall.environment with ⟨outcome, rfl⟩ | ⟨deed, _, _, turn⟩
    · exact .inr (.inl ⟨outcome, step_of_leaving sits⟩)
    · exact .inl ⟨deed, step_of_stage sits turn⟩
  | ended decision gone issued settled decided ends bound =>
    exact absurd rfl (gone seat (List.mem_map.mpr ⟨_, sits, rfl⟩))

/-- A step has done no more than ten steps in slow motion. -/
theorem Situation.turns_le (situation : Situation context step input seat hall moves) :
    turns seat moves ≤ 10 := by
  cases situation <;> omega

/-- A step that has left its seat did so with the outcome of the decision that was made. -/
theorem Situation.outcome_of_leaves (situation : Situation context step input seat hall moves)
    {outcome : Outcome} (left : .leaves seat outcome ∈ moves) :
    ∃ decision, Decided seat moves decision ∧ outcome = decision.outcome step input := by
  cases situation with
  | asked _ _ _ _ _ _ _ _ stays _ => exact absurd left (stays outcome)
  | answered _ _ _ _ _ _ _ stays _ => exact absurd left (stays outcome)
  | reacting _ _ _ _ _ _ stays _ => exact absurd left (stays outcome)
  | ended decision _ _ _ decided ends _ => exact ⟨decision, decided, ends outcome left⟩

/-- No more than one decision is delivered. -/
theorem Situation.deliveries_le (situation : Situation context step input seat hall moves) :
    (deliveries seat.ticket moves).length ≤ 1 := by
  have atMostOne : ∀ decision, Decided seat moves decision →
      (deliveries seat.ticket moves).length ≤ 1 := by
    rintro decision (⟨delivered, -⟩ | ⟨delivered, -⟩) <;> simp [delivered]
  cases situation with
  | asked _ _ _ _ _ _ undelivered _ _ _ => simp [undelivered]
  | answered _ _ _ _ _ delivered _ _ _ => simp [delivered]
  | reacting decision _ _ _ _ decided _ _ => exact atMostOne decision decided
  | ended decision _ _ _ decided _ _ => exact atMostOne decision decided

/-- When the limit of a step has decided, no decision was delivered and none will be. -/
theorem Situation.closed_of_expired (situation : Situation context step input seat hall moves)
    (orderly : hall.Orderly) (expired : .does seat (.expired true) ∈ moves) :
    deliveries seat.ticket moves = [] ∧ ¬hall.Lies seat ∧
      ∀ decision, (hall.desk.send seat.ticket decision).1 = .stepEnded := by
  have closed : ∀ decision, hall.desk.letter seat.ticket ≠ .awaited → Decided seat moves decision →
      deliveries seat.ticket moves = [] ∧ ¬hall.Lies seat ∧
        ∀ decision, (hall.desk.send seat.ticket decision).1 = .stepEnded := by
    intro decision settled decided
    refine ⟨?_, ?_, fun answer => by rw [Desk.send_eq_of_ne settled]⟩
    · rcases decided with ⟨-, unexpired⟩ | ⟨undelivered, -⟩
      · exact absurd expired unexpired
      · exact undelivered
    · rintro ⟨entry, member, own⟩
      exact settled (own ▸ orderly.awaited entry member)
  cases situation with
  | asked _ _ _ _ _ _ _ unexpired _ _ => exact absurd expired unexpired
  | answered _ _ _ _ _ _ unexpired _ _ => exact absurd expired unexpired
  | reacting decision _ _ _ settled decided _ _ => exact closed decision settled decided
  | ended decision _ _ settled decided _ _ => exact closed decision settled decided

/-- Exactly one side decides about a request that nobody disturbs. In any order of moves at most one
decision is delivered; the step ends with the outcome of that decision, or, if there was none,
because its limit discarded the request, after which none is delivered; it is never aborted; and it
can always go on unless it waits for something that has not come, but not forever. -/
theorem one_side_decides {environment : Environment} {earlier moves : List Move}
    {hall hall' : Hall} (opened : (opening environment).Run earlier hall) (context : Context)
    (step : Workflow.Step) (input : Value)
    (free : ∀ other ∈ hall.seats, other.key ≠ ⟨context.execution, step.name⟩)
    (race : (hall.sit context step input).Race (hall.seatFor context step input) moves hall') :
    let seat := hall.seatFor context step input
    (deliveries seat.ticket moves).length ≤ 1 ∧
    (∀ outcome, .leaves seat outcome ∈ moves → outcome ≠ .error (.humanAborted step.name) ∧
      ((∃ decision, deliveries seat.ticket moves = [decision] ∧
          outcome = decision.outcome step input) ∨
        (deliveries seat.ticket moves = [] ∧ .does seat (.expired true) ∈ moves ∧
          outcome = Decision.timeout.outcome step input))) ∧
    (.does seat (.expired true) ∈ moves → deliveries seat.ticket moves = [] ∧ ¬hall'.Lies seat ∧
      ∀ decision, (hall'.desk.send seat.ticket decision).1 = .stepEnded) ∧
    turns seat moves ≤ 10 ∧
    ∀ stage, ⟨seat, stage⟩ ∈ hall'.sitters →
      (∃ deed later, hall'.Step (.does seat deed) later) ∨
      (∃ outcome later, hall'.Step (.leaves seat outcome) later) ∨
      hall'.Expects step seat moves stage := by
  intro seat
  have begun := (Step.sits hall context step input).orderly opened.orderly
  obtain ⟨orderly, situation⟩ := race.situation begun (situation_sit hall context step input free)
  refine ⟨situation.deliveries_le, ?_, situation.closed_of_expired orderly, situation.turns_le,
    fun stage => situation.progress orderly⟩
  intro outcome left
  obtain ⟨decision, decided, rfl⟩ := situation.outcome_of_leaves left
  refine ⟨decision.outcome_ne_aborted step input step.name, ?_⟩
  rcases decided with ⟨delivered, -⟩ | ⟨undelivered, rfl, expired⟩
  · exact .inl ⟨decision, delivered, rfl⟩
  · exact .inr ⟨undelivered, expired, rfl⟩

/-- A hall in which one step has made its request. -/
def oneReview : Hall :=
  (opening .idle).sit (.start "workflow" "run" .null) (plainReview "review") .null

/-- The step announces its request and waits, somebody takes the request and approves, and the step
ends. -/
theorem oneReview_race : ∃ hall, oneReview.Race firstSeat
    [.does firstSeat (.announced (requestOf (.start "workflow" "run" .null) (plainReview "review")
        .null)), .does firstSeat .unseen,
      .takes ⟨"run", "review"⟩ (some 0), .sends 0 .approve .delivered,
      .does firstSeat .unseen, .does firstSeat .unseen,
      .leaves firstSeat (Decision.approve.outcome (plainReview "review") .null)] hall := by
  have spares : ∀ (hall : Hall) (move : Move), move ≠ .dropped firstSeat →
      (∀ deed, move = .does firstSeat deed → deed = .unseen ∨ ∃ request, deed = .announced request) →
      (∀ other, move ≠ .sits other) → hall.Spares firstSeat move := by
    intro hall move kept silent sits
    refine ⟨kept, ?_, ?_, fun _ other same => absurd same (sits other)⟩
    · intro action same
      rcases silent _ same with unseen | ⟨request, announced⟩
      · cases unseen
      · cases announced
    · intro error same
      rcases silent _ same with unseen | ⟨request, announced⟩
      · cases unseen
      · cases announced
  have opened : oneReview.Race firstSeat [] oneReview := .here
  have announced := opened.next (.does [] [] [] .announce)
    (spares _ _ (by simp) (by simp) (by simp))
  have waits := announced.next (.does [] [] [] .await) (spares _ _ (by simp) (by simp) (by simp))
  have taken := waits.next (.takes _ ⟨"run", "review"⟩) (spares _ _ (by simp) (by simp) (by simp))
  have sent := taken.next (.sends _ _ [] [] 0 .approve) (spares _ _ (by simp) (by simp) (by simp))
  have received := sent.next (.does [] [] [] (.answered rfl))
    (spares _ _ (by simp) (by simp) (by simp))
  have settled := received.next (.does [] [] [] .settle) (spares _ _ (by simp) (by simp) (by simp))
  have left := settled.next (.leaves _ [] [] [] _ _) (spares _ _ (by simp) (by simp) (by simp))
  exact ⟨_, left⟩

/-- The step of an approved request ends with the approval. -/
theorem approval_decides : ∃ moves hall, oneReview.Race firstSeat moves hall ∧
    deliveries 0 moves = [.approve] ∧ ∀ outcome, .leaves firstSeat outcome ∈ moves →
      outcome = Decision.approve.outcome (plainReview "review") .null := by
  obtain ⟨hall, race⟩ := oneReview_race
  have opened : (opening .idle).Run [] (opening .idle) := .here
  have free : ∀ other ∈ (opening .idle).seats, other.key ≠ ⟨"run", "review"⟩ := by
    simp [seats, opening]
  have law := one_side_decides opened (.start "workflow" "run" .null) (plainReview "review") .null
    free race
  refine ⟨_, hall, race, by decide, ?_⟩
  intro outcome left
  rcases (law.2.1 outcome left).2 with ⟨decision, delivered, same⟩ | ⟨undelivered, -⟩
  · have approved : [decision] = [.approve] := delivered.symm.trans (by decide)
    rw [same, List.singleton_inj.mp approved]
  · exact absurd undelivered (by decide)

end Hall

end Workflow
