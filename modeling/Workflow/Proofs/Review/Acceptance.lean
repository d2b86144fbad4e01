import Workflow.Proofs.Review.Boxes

/-!
# What becomes of an accepted decision

A decision is accepted as soon as it is in the box of the step, but the step looks into its box only
when its notifier has answered. In between the step may end in another way: because its notifier
fails, or because its limit runs out while the request of another step lies under its key.

`Hall.Course` says what a step can have come to in any run in which it is not dropped, whatever
others with its key do meanwhile, and `Hall.Cause` why it has the outcome that it has. A step whose
decision has been accepted ends with the decision unless one of the two other ways was open to it.
-/
namespace Workflow

namespace Stage

/-- A deed by which a step learns that its notifier has failed, with the error that it ends with. -/
inductive Failure (step : Workflow.Step) : Deed → StepError → Prop where
  /-- The action that it names is not registered. -/
  | unknown (action : String) (names : step.action = some action) :
      Failure step (.lookedUp action none) (.unknownAction action)
  | failed (action : String) (names : step.action = some action) (source : ActionError) :
      Failure step (.heard (.returned (.error source))) (.actionFailed action source)

/-- A step has an outcome and is about to leave its seat with it. -/
inductive Ending (outcome : Outcome) : Stage → Prop where
  | warning (warning : Warning) : Ending outcome (.going (.warn warning (.settle outcome)))
  | settling : Ending outcome (.going (.settle outcome))
  | leaving : Ending outcome (.leaving outcome)

variable {context : Context} {step : Workflow.Step} {input : Value} {seat : Seat}
  {environment environment' : Environment} {stage stage' : Stage} {deed : Deed} {outcome : Outcome}

/-- A step that has a decision is on its way to the outcome of the decision. -/
theorem ending_afterDecision (step : Workflow.Step) (input : Value) (decision : Decision) :
    Ending (decision.outcome step input) (.going (afterDecision step input (some decision))) := by
  rw [afterDecision_some, decided_outcome]
  cases (decided step input decision).1 with
  | none => exact .settling
  | some warning => exact .warning warning

/-- A step that has its outcome keeps it, and nothing can be told about what it does. -/
theorem Ending.next (ending : stage.Ending outcome)
    (move : Step seat environment stage deed environment' stage') :
    stage'.Ending outcome ∧ deed = .unseen ∧ stage'.rank < stage.rank := by
  cases ending with
  | warning warning =>
    cases move with
    | warn => exact ⟨.settling, rfl, by simp [rank]⟩
  | settling =>
    cases move with
    | settle => exact ⟨.leaving, rfl, by simp [rank]⟩
  | leaving => cases move

/-- A step that has its outcome can go on until it leaves. -/
theorem Ending.progress (ending : stage.Ending outcome) (environment : Environment) :
    (∃ outcome, stage = .leaving outcome) ∨
      ∃ deed environment' stage', Step seat environment stage deed environment' stage' := by
  cases ending with
  | warning warning => exact .inr ⟨_, _, _, .warn⟩
  | settling => exact .inr ⟨_, _, _, .settle⟩
  | leaving => exact .inl ⟨_, rfl⟩

/-- A step that asks learns that its notifier has failed, or does one of the things that it does
otherwise. -/
theorem Asking.turn_or_fails (asking : stage.Asking context step input seat)
    (move : Step seat environment stage deed environment' stage') :
    (∃ error, Failure step deed error ∧ stage' = .going (.settle (.error error))) ∨
      ((∀ error, ¬Failure step deed error) ∧
        Turn context step input seat environment environment' stage' deed) := by
  by_cases failure : (∃ action, deed = .lookedUp action none) ∨
      ∃ error, deed = .heard (.returned (.error error))
  · left
    cases asking with
    | announcing =>
      cases move
      simp at failure
    | seeking action names =>
      cases move with
      | lookUp =>
        cases found : environment.actions.find? action with
        | none => exact ⟨_, .unknown action names, rfl⟩
        | some registration => simp [found] at failure
    | calling action names call =>
      cases move with
      | @hear _ answer _ ended =>
        rcases answer with (error | value) | _
        · exact ⟨_, .failed action names error, rfl⟩
        · simp at failure
        · simp at failure
    | notifying action names registration | ready =>
      cases move
      simp at failure
    | awaiting deadline | expiring => cases move <;> simp at failure
  · right
    rw [not_or, not_exists, not_exists] at failure
    have turn := asking.turn move failure.1 failure.2
    refine ⟨?_, turn⟩
    rintro error (⟨action, -⟩ | ⟨-, -, source⟩)
    · exact failure.1 action rfl
    · exact failure.2 source rfl

end Stage

namespace Hall

variable {context : Context} {step : Workflow.Step} {input : Value} {seat : Seat}
  {hall hall' : Hall} {moves : List Move} {move : Move} {outcome : Outcome}

/-! ## Moves in a crowd -/

/-- A move as a step sees it, whoever else has its key. -/
inductive Sight (seat : Seat) (stage : Stage) (hall hall' : Hall) : Move → Prop where
  | own {stage' : Stage} {deed : Deed}
      (turn : Stage.Step seat hall.environment stage deed hall'.environment stage')
      (sits : ⟨seat, stage'⟩ ∈ hall'.sitters) : Sight seat stage hall hall' (.does seat deed)
  | left {outcome : Outcome} (leaving : stage = .leaving outcome)
      (gone : ∀ other ∈ hall'.seats, other.ticket ≠ seat.ticket) :
      Sight seat stage hall hall' (.leaves seat outcome)
  /-- Somebody else does something. -/
  | other {move : Move} (sits : ⟨seat, stage⟩ ∈ hall'.sitters)
      (notDoes : ∀ deed, move ≠ .does seat deed)
      (notLeaves : ∀ outcome, move ≠ .leaves seat outcome) : Sight seat stage hall hall' move

/-- Every move that does not drop a step is of one of these kinds. -/
theorem Step.sight (next : hall.Step move hall') (orderly : hall.Orderly) {stage : Stage}
    (sits : ⟨seat, stage⟩ ∈ hall.sitters) (notDropped : move ≠ .dropped seat) :
    Sight seat stage hall hall' move := by
  have aside : ∀ {other : Seat} {stage₀ : Stage} {before after : List Sitter}, other ≠ seat →
      ⟨seat, stage⟩ ∈ before ++ ⟨other, stage₀⟩ :: after →
      ⟨seat, stage⟩ ∈ before ∨ ⟨seat, stage⟩ ∈ after :=
    fun different member => mem_sides different member
  cases next with
  | sits _ context step input =>
    exact .other (List.mem_cons_of_mem _ sits) (by simp) (by simp)
  | @does environment environment' other stage₀ stage' deed before after hands turn =>
    by_cases own : other = seat
    · subst own
      obtain rfl : stage = stage₀ := orderly.stage_eq sits (by simp)
      exact .own turn (by simp)
    · refine .other ?_ (by simp [own]) (by simp)
      rcases aside own sits with earlier | later
      · exact List.mem_append_left _ earlier
      · exact List.mem_append_right _ (List.mem_cons_of_mem _ later)
  | leaves environment before after hands other outcome =>
    by_cases own : other = seat
    · subst own
      have leaving : stage = .leaving outcome := orderly.stage_eq sits (by simp)
      exact .left leaving orderly.box_free
    · refine .other ?_ (by simp) (by simp [own])
      rcases aside own sits with earlier | later
      · exact List.mem_append_left _ earlier
      · exact List.mem_append_right _ later
  | dropped environment before after hands other stage₀ =>
    have own : other ≠ seat := by
      rintro rfl
      exact notDropped rfl
    refine .other ?_ (by simp) (by simp)
    rcases aside own sits with earlier | later
    · exact List.mem_append_left _ earlier
    · exact List.mem_append_right _ later
  | takes _ key => exact .other sits (by simp) (by simp)
  | sends environment sitters before after ticket decision => exact .other sits (by simp) (by simp)
  | elsewhere sitters hands same later => exact .other sits (by simp) (by simp)

/-- The box of a step is not closed before the step leaves its seat or is dropped. -/
theorem Step.open_box (next : hall.Step move hall') (orderly : hall.Orderly)
    (held : seat ∈ hall.seats) (opened : hall.desk.letter seat.ticket ≠ .closed)
    (notDropped : move ≠ .dropped seat) (notLeaves : ∀ outcome, move ≠ .leaves seat outcome) :
    hall'.desk.letter seat.ticket ≠ .closed := by
  have becomes := next.changes.letter (orderly.issued seat held)
  generalize hall.desk.letter seat.ticket = letter at becomes opened
  generalize hall'.desk.letter seat.ticket = letter' at becomes
  cases becomes with
  | kept => exact opened
  | abandoned | answered => simp
  | @closed _ _ other own leaves =>
    have discards : move.discards? = some other := by
      rcases leaves with rfl | ⟨outcome, rfl⟩ <;> rfl
    have same : other = seat :=
      Desk.Orderly.seat_eq orderly (next.seat_mem discards) held own
    subst same
    rcases leaves with rfl | ⟨outcome, rfl⟩
    · exact absurd rfl notDropped
    · exact absurd rfl (notLeaves outcome)

/-- What is known of a step and its box, whatever the step does. -/
structure Record (seat : Seat) (hall : Hall) (moves : List Move) : Prop where
  orderly : hall.Orderly
  /-- The box of the step has been issued. -/
  issued : seat.ticket < hall.desk.letters.length
  holds : (hall.desk.letter seat.ticket).Holds (deliveries seat.ticket moves)
  /-- Whoever made a request later did so in one of the moves. -/
  newcomers : ∀ other ∈ hall.seats, seat.ticket < other.ticket → .sits other ∈ moves

/-- What is known of a step and its box stays known in every move. -/
theorem Record.next (record : Record seat hall moves) (next : hall.Step move hall') :
    Record seat hall' (moves ++ [move]) where
  orderly := next.orderly record.orderly
  issued := Nat.lt_of_lt_of_le record.issued next.changes.length_le
  holds := (next.changes.letter record.issued).holds record.holds
  newcomers other held later := by
    rcases next.seats held with before | ⟨rfl, -⟩
    · exact List.mem_append_left _ (record.newcomers other before later)
    · exact List.mem_append_right _ (List.mem_singleton.mpr rfl)

/-! ## Why a step has its outcome -/

/-- The notifier of a step has not failed. -/
def Notified (step : Workflow.Step) (seat : Seat) (moves : List Move) : Prop :=
  ∀ deed error, Stage.Failure step deed error → .does seat deed ∉ moves

/-- A later request has been made under the key of a step. -/
def Rivalled (seat : Seat) (moves : List Move) : Prop :=
  ∃ other, .sits other ∈ moves ∧ other.key = seat.key ∧ seat.ticket < other.ticket

/-- Nothing has been delivered to a step, and nothing will be. -/
def Missed (seat : Seat) (hall : Hall) (moves : List Move) : Prop :=
  hall.desk.letter seat.ticket ≠ .awaited ∧ deliveries seat.ticket moves = []

/-- How it came that a step has an outcome. -/
inductive Cause (step : Workflow.Step) (input : Value) (seat : Seat) (hall : Hall)
    (moves : List Move) : Outcome → Prop where
  /-- It found a decision in its box. -/
  | decided (decision : Decision) (delivered : deliveries seat.ticket moves = [decision])
      (notified : Notified step seat moves) (unexpired : .does seat (.expired true) ∉ moves) :
      Cause step input seat hall moves (decision.outcome step input)
  /-- Its notifier failed, and in one way only. -/
  | failed (error : StepError) (only : ∀ deed other, Stage.Failure step deed other →
      .does seat deed ∈ moves → other = error) (unnotified : ¬Notified step seat moves)
      (unexpired : .does seat (.expired true) ∉ moves) :
      Cause step input seat hall moves (.error error)
  /-- Its limit discarded a request, its own or a later one. -/
  | expired (notified : Notified step seat moves) (did : .does seat (.expired true) ∈ moves)
      (whose : Rivalled seat moves ∨ Missed seat hall moves) :
      Cause step input seat hall moves (Decision.timeout.outcome step input)
  /-- Its request was dropped by another step. -/
  | forsaken (missed : Missed seat hall moves) :
      Cause step input seat hall moves (.error (.humanAborted step.name))

/-- A deed of which nothing can be told is no failure of a notifier. -/
theorem not_failure_unseen (error : StepError) : ¬Stage.Failure step .unseen error := by
  intro failure
  cases failure

/-- A deed leaves no doubt about the error that follows from it. -/
theorem failure_unique {deed : Deed} {first second : StepError}
    (failure : Stage.Failure step deed first) (other : Stage.Failure step deed second) :
    first = second := by
  cases failure with
  | unknown action names =>
    cases other with
    | unknown => rfl
  | failed action names source =>
    cases other with
    | failed other names' =>
      have same : action = other := Option.some.inj (names.symm.trans names')
      rw [same]

/-- No decision has the outcome of a failed notifier. -/
theorem failure_ne_outcome {deed : Deed} {error : StepError}
    (failure : Stage.Failure step deed error) (input : Value) (decision : Decision) :
    Except.error error ≠ decision.outcome step input := by
  cases failure <;> cases decision with
  | approve | modify | reject => simp [Decision.outcome, Outcome.ofValue]
  | timeout =>
    rw [Decision.outcome]
    split <;> simp [Outcome.ofValue]

/-- A move in which the notifier does not fail leaves the step notified. -/
theorem Notified.more (notified : Notified step seat moves)
    (unseen : ∀ deed, move = .does seat deed → ∀ error, ¬Stage.Failure step deed error) :
    Notified step seat (moves ++ [move]) := by
  intro deed error failure
  apply not_mem_concat (notified deed error failure)
  intro same
  exact unseen deed same error failure

/-- What has been missed stays missed in every move. -/
theorem Missed.more (missed : Missed seat hall moves) (record : Record seat hall moves)
    (next : hall.Step move hall') : Missed seat hall' (moves ++ [move]) := by
  obtain ⟨settled, undelivered⟩ := missed
  refine ⟨next.changes.settled record.issued settled, ?_⟩
  rw [deliveries_concat, undelivered, next.changes.undelivered settled]
  rfl

/-- Nothing has been delivered to a step whose box was given up. -/
theorem Record.missed (record : Record seat hall moves)
    (abandoned : hall.desk.letter seat.ticket = .abandoned) : Missed seat hall moves :=
  ⟨by simp [abandoned], record.holds.eq_nil (.inr abandoned)⟩

/-- A cause remains what it is while the step does nothing of which anything can be told. -/
theorem Cause.more (cause : Cause step input seat hall moves outcome)
    (record : Record seat hall moves) (next : hall.Step move hall')
    (unseen : ∀ deed, move = .does seat deed → deed = .unseen) :
    Cause step input seat hall' (moves ++ [move]) outcome := by
  have silent : ∀ deed, move = .does seat deed → ∀ error, ¬Stage.Failure step deed error := by
    intro deed same error
    rw [unseen deed same]
    exact not_failure_unseen error
  have inTime : move ≠ .does seat (.expired true) := by
    intro same
    cases unseen _ same
  cases cause with
  | decided decision delivered notified unexpired =>
    -- No more than one decision is delivered to a box, so the move delivers none.
    have once := (record.next next).holds.length_le
    refine .decided decision ?_ (notified.more silent) (not_mem_concat unexpired inTime)
    rw [deliveries_concat, delivered] at once ⊢
    have nothing : (move.delivered? seat.ticket).toList = [] := by
      apply List.eq_nil_of_length_eq_zero
      simpa using once
    rw [nothing, List.append_nil]
  | failed error only unnotified unexpired =>
    refine .failed error ?_ ?_ (not_mem_concat unexpired inTime)
    · intro deed other failure member
      rcases List.mem_append.mp member with before | last
      · exact only deed other failure before
      · exact absurd failure (silent deed (List.mem_singleton.mp last).symm other)
    · intro notified
      apply unnotified
      intro deed other failure before
      exact notified deed other failure (List.mem_append_left _ before)
  | expired notified did whose =>
    refine .expired (notified.more silent) (List.mem_append_left _ did) ?_
    rcases whose with ⟨other, sat, rest⟩ | missed
    · exact .inl ⟨other, List.mem_append_left _ sat, rest⟩
    · exact .inr (missed.more record next)
  | forsaken missed => exact .forsaken (missed.more record next)

/-! ## The course of a step -/

/-- What a step that has not been dropped has come to. -/
inductive Course (context : Context) (step : Workflow.Step) (input : Value) (seat : Seat)
    (hall : Hall) (moves : List Move) : Prop where
  | asks {stage : Stage} (sits : ⟨seat, stage⟩ ∈ hall.sitters)
      (asking : stage.Asking context step input seat)
      (opened : hall.desk.letter seat.ticket ≠ .closed) (notified : Notified step seat moves)
      (unexpired : .does seat (.expired true) ∉ moves)
      (stays : ∀ outcome, .leaves seat outcome ∉ moves) (bound : turns seat moves + stage.rank ≤ 10)
  /-- It has its outcome. -/
  | ends {stage : Stage} {outcome : Outcome} (sits : ⟨seat, stage⟩ ∈ hall.sitters)
      (ending : stage.Ending outcome) (cause : Cause step input seat hall moves outcome)
      (stays : ∀ outcome, .leaves seat outcome ∉ moves) (bound : turns seat moves + stage.rank ≤ 10)
  | gone (absent : ∀ other ∈ hall.seats, other.ticket ≠ seat.ticket)
      (causes : ∀ outcome, .leaves seat outcome ∈ moves →
        Cause step input seat hall moves outcome) (bound : turns seat moves ≤ 10)

/-- Whoever's request lies under the key of a step when its limit runs out, it is the step's own,
which is answered by nobody, or a later one. -/
theorem Record.whose (record : Record seat hall moves) (held : seat ∈ hall.seats)
    (next : hall.Step (.does seat (.expired true)) hall') {entry : OpenRequest}
    (found : hall.desk.find? seat.key = some entry)
    (desk : hall'.desk = hall.desk.discard seat.key) :
    Rivalled seat (moves ++ [.does seat (.expired true)]) ∨
      Missed seat hall' (moves ++ [.does seat (.expired true)]) := by
  obtain ⟨member, key⟩ := Desk.of_find? found
  have awaited := record.orderly.awaited entry member
  by_cases own : entry.ticket = seat.ticket
  · right
    have abandoned : hall'.desk.letter seat.ticket = .abandoned := by
      rw [desk, ← own]
      exact Desk.letter_discard_self found awaited
    exact (record.next next).missed abandoned
  · -- The step has been replaced under its key, which only a later one can do.
    left
    obtain ⟨other, otherHeld, sameBox, sameKey⟩ := record.orderly.seated entry member
    have latest := record.orderly.latest entry member seat held key.symm
    have later : seat.ticket < other.ticket := by
      rw [sameBox]
      exact Nat.lt_of_le_of_ne latest (Ne.symm own)
    have sat := record.newcomers other otherHeld later
    exact ⟨other, List.mem_append_left _ sat, sameKey.trans key, later⟩

/-- A step whose notifier fails ends with the error, if the notifier has not failed before. -/
theorem Cause.of_failure (notified : Notified step seat moves)
    (unexpired : .does seat (.expired true) ∉ moves) {deed : Deed} {error : StepError}
    (failure : Stage.Failure step deed error) :
    Cause step input seat hall (moves ++ [.does seat deed]) (.error error) := by
  have inTime : deed ≠ .expired true := by
    rintro rfl
    cases failure
  refine .failed error ?_ ?_ (not_mem_concat unexpired (by simpa using inTime))
  · intro other error' failure' member
    rcases List.mem_append.mp member with before | last
    · exact absurd before (notified other error' failure')
    · injection List.mem_singleton.mp last with _ same
      subst same
      exact failure_unique failure' failure
  · intro claim
    exact claim deed error failure (by simp)

section Asks

variable (record : Record seat hall moves) (opened : hall.desk.letter seat.ticket ≠ .closed)
  (notified : Notified step seat moves) (unexpired : .does seat (.expired true) ∉ moves)
  (stays : ∀ outcome, .leaves seat outcome ∉ moves)

include record opened notified unexpired stays

/-- What a step in slow motion of a step that asks leads to, if its notifier does not fail. -/
theorem Course.of_turn {stage' : Stage} {deed : Deed} (held : seat ∈ hall.seats)
    (next : hall.Step (.does seat deed) hall') (sits' : ⟨seat, stage'⟩ ∈ hall'.sitters)
    (silent : ∀ error, ¬Stage.Failure step deed error)
    (turn : Stage.Turn context step input seat hall.environment hall'.environment stage' deed)
    (bound' : turns seat (moves ++ [.does seat deed]) + stage'.rank ≤ 10) :
    Course context step input seat hall' (moves ++ [.does seat deed]) := by
  have stays' : ∀ outcome, .leaves seat outcome ∉ moves ++ [.does seat deed] :=
    stays_concat stays (by simp)
  have notified' : Notified step seat (moves ++ [.does seat deed]) := by
    apply notified.more
    intro other same
    injection same with _ same
    subst same
    exact silent
  cases turn with
  | asks asking' desk inTime outrun =>
    have opened' := next.open_box record.orderly held opened (by simp) (by simp)
    exact .asks sits' asking' opened' notified' (not_mem_concat unexpired (by simp [inTime]))
      stays' bound'
  | receives decision letter desk =>
    have letter' : hall'.desk.letter seat.ticket = .answered decision := by
      rw [Hall.desk, desk]
      exact letter
    have delivered := Letter.Holds.of_answered (letter' ▸ (record.next next).holds)
    exact .ends sits' (Stage.ending_afterDecision step input decision)
      (.decided decision delivered notified' (not_mem_concat unexpired (by simp))) stays' bound'
  | forsaken letter =>
    -- A step that still asks has not left its box closed, so the box has been given up.
    have missed := record.missed (letter.resolve_right opened)
    exact .ends sits' .settling (.forsaken (missed.more record next)) stays' bound'
  | expires entry found desk =>
    have whose := record.whose held next found desk
    exact .ends sits' (Stage.ending_afterDecision step input .timeout)
      (.expired notified' (by simp) whose) stays' bound'

/-- What becomes of a step that asks. -/
theorem Course.next_of_asks {stage : Stage} (sits : ⟨seat, stage⟩ ∈ hall.sitters)
    (asking : stage.Asking context step input seat) (bound : turns seat moves + stage.rank ≤ 10)
    (next : hall.Step move hall') (notDropped : move ≠ .dropped seat) :
    Course context step input seat hall' (moves ++ [move]) := by
  have held : seat ∈ hall.seats := List.mem_map.mpr ⟨_, sits, rfl⟩
  cases next.sight record.orderly sits notDropped with
  | @own stage' deed turn sits' =>
    have bound' := turns_concat_le bound (asking.rank_lt turn) deed
    rcases asking.turn_or_fails turn with ⟨error, failure, rfl⟩ | ⟨silent, turned⟩
    · exact .ends sits' .settling (.of_failure notified unexpired failure)
        (stays_concat stays (by simp)) bound'
    · exact .of_turn record opened notified unexpired stays held next sits' silent turned bound'
  | left leaving absent =>
    subst leaving
    cases asking
  | other sits' notDoes notLeaves =>
    have opened' := next.open_box record.orderly held opened notDropped notLeaves
    have notified' : Notified step seat (moves ++ [move]) :=
      notified.more fun deed same => absurd same (notDoes deed)
    refine .asks sits' asking opened' notified' (not_mem_concat unexpired (notDoes _))
      (stays_concat stays notLeaves) ?_
    rw [turns_concat_other moves notDoes]
    exact bound

end Asks

/-- What becomes of a step that has its outcome. -/
theorem Course.next_of_ends {stage : Stage} (record : Record seat hall moves)
    (sits : ⟨seat, stage⟩ ∈ hall.sitters) (ending : stage.Ending outcome)
    (cause : Cause step input seat hall moves outcome)
    (stays : ∀ outcome, .leaves seat outcome ∉ moves) (bound : turns seat moves + stage.rank ≤ 10)
    (next : hall.Step move hall') (notDropped : move ≠ .dropped seat) :
    Course context step input seat hall' (moves ++ [move]) := by
  cases next.sight record.orderly sits notDropped with
  | @own stage' deed turn sits' =>
    obtain ⟨ending', rfl, closer⟩ := ending.next turn
    have cause' := cause.more record next fun deed same => (Move.does.inj same).2.symm
    exact .ends sits' ending' cause' (stays_concat stays (by simp))
      (turns_concat_le bound closer _)
  | @left last leaving absent =>
    have same : last = outcome := by
      subst leaving
      cases ending
      rfl
    subst same
    have cause' := cause.more record next (by simp)
    refine .gone absent ?_ ?_
    · intro other member
      rcases List.mem_append.mp member with before | now
      · exact absurd before (stays other)
      · injection List.mem_singleton.mp now with _ same
        rw [same]
        exact cause'
    · rw [turns_concat_other moves (by simp)]
      omega
  | other sits' notDoes notLeaves =>
    have cause' := cause.more record next fun deed same => absurd same (notDoes deed)
    refine .ends sits' ending cause' (stays_concat stays notLeaves) ?_
    rw [turns_concat_other moves notDoes]
    exact bound

/-- A step that has left its seat does nothing more. -/
theorem Course.next_of_gone (record : Record seat hall moves)
    (absent : ∀ other ∈ hall.seats, other.ticket ≠ seat.ticket)
    (causes : ∀ outcome, .leaves seat outcome ∈ moves → Cause step input seat hall moves outcome)
    (bound : turns seat moves ≤ 10) (next : hall.Step move hall') :
    Course context step input seat hall' (moves ++ [move]) := by
  have away : seat ∉ hall.seats := fun held => absent seat held rfl
  have notDoes : ∀ deed, move ≠ .does seat deed := by
    rintro deed rfl
    exact away next.does_mem
  refine .gone (next.unwatched record.issued absent) ?_ ?_
  · intro outcome member
    rcases List.mem_append.mp member with before | now
    · exact (causes outcome before).more record next fun deed same => absurd same (notDoes deed)
    · obtain rfl := List.mem_singleton.mp now
      exact absurd next.leaves_mem away
  · rw [turns_concat_other moves notDoes]
    exact bound

/-- Every move that does not drop a step takes it on in its course. -/
theorem Course.next (course : Course context step input seat hall moves)
    (record : Record seat hall moves) (next : hall.Step move hall')
    (notDropped : move ≠ .dropped seat) :
    Course context step input seat hall' (moves ++ [move]) := by
  cases course with
  | asks sits asking opened notified unexpired stays bound =>
    exact .next_of_asks record opened notified unexpired stays sits asking bound next notDropped
  | ends sits ending cause stays bound =>
    exact .next_of_ends record sits ending cause stays bound next notDropped
  | gone absent causes bound => exact .next_of_gone record absent causes bound next

/-- A step that has just made its request has its whole course before it. -/
theorem Record.begun {hall : Hall} (orderly : hall.Orderly) (context : Context)
    (step : Workflow.Step) (input : Value) :
    Record (hall.seatFor context step input) (hall.sit context step input) [] := by
  have sat := Step.sits hall context step input
  have ticket : (hall.seatFor context step input).ticket = hall.desk.letters.length := rfl
  refine ⟨sat.orderly orderly, ?_, ?_, ?_⟩
  · rw [desk_sit, Desk.length_sitDown, ticket]
    exact Nat.lt_succ_self _
  · rw [desk_sit, ticket, Desk.letter_sitDown_self]
    exact .awaited
  · intro other held later
    rcases List.mem_cons.mp held with rfl | before
    · exact absurd later (Nat.lt_irrefl _)
    · have issued := orderly.issued other before
      rw [ticket] at later
      exact absurd issued (Nat.lt_asymm later)

/-- A step that has just made its request asks. -/
theorem Course.begun (hall : Hall) (context : Context) (step : Workflow.Step) (input : Value) :
    Course context step input (hall.seatFor context step input) (hall.sit context step input)
      [] := by
  have ticket : (hall.seatFor context step input).ticket = hall.desk.letters.length := rfl
  refine .asks List.mem_cons_self (.announcing) ?_ ?_ List.not_mem_nil
    (fun _ => List.not_mem_nil) ?_
  · rw [desk_sit, ticket, Desk.letter_sitDown_self]
    decide
  · intro deed error failure
    exact List.not_mem_nil
  · rw [turns, List.countP_nil, Nat.zero_add]
    exact Stage.rank_le _

/-- A step that is not dropped is always somewhere on its course. -/
theorem Run.course {start : Hall} (record : Record seat start [])
    (begun : Course context step input seat start []) (run : start.Run moves hall)
    (kept : .dropped seat ∉ moves) :
    Record seat hall moves ∧ Course context step input seat hall moves := by
  induction run with
  | here => exact ⟨record, begun⟩
  | @next moves move hall hall' run next ih =>
    have notDropped : move ≠ .dropped seat := by
      rintro rfl
      exact kept (by simp)
    obtain ⟨recorded, course⟩ := ih fun before => kept (List.mem_append_left _ before)
    exact ⟨recorded.next next, course.next recorded next notDropped⟩

/-! ## Accepted decisions -/

variable {decision : Decision}

/-- A decision that was accepted is the only one that was delivered. -/
theorem Record.accepted (record : Record seat hall moves)
    (accepted : decision ∈ deliveries seat.ticket moves) :
    deliveries seat.ticket moves = [decision] := by
  have once := record.holds.length_le
  match delivered : deliveries seat.ticket moves with
  | [] => simp [delivered] at accepted
  | [only] =>
    rw [delivered, List.mem_singleton] at accepted
    rw [accepted]
  | _ :: _ :: _ => simp [delivered] at once

/-- The outcome of a step whose decision was accepted: that of the decision, unless its notifier has
failed or its limit has discarded the request of another step. -/
theorem Cause.outcome_eq (cause : Cause step input seat hall moves outcome)
    (accepted : deliveries seat.ticket moves = [decision]) :
    (Notified step seat moves → .does seat (.expired true) ∉ moves →
      outcome = decision.outcome step input) ∧
    (∀ deed error, Stage.Failure step deed error → .does seat deed ∈ moves →
      outcome = .error error ∧ outcome ≠ decision.outcome step input) ∧
    (.does seat (.expired true) ∈ moves →
      Rivalled seat moves ∧ outcome = Decision.timeout.outcome step input) := by
  have received : ¬Missed seat hall moves := by
    rintro ⟨-, undelivered⟩
    rw [accepted] at undelivered
    cases undelivered
  cases cause with
  | decided other delivered notified unexpired =>
    have same : other = decision := List.singleton_inj.mp (delivered.symm.trans accepted)
    subst same
    refine ⟨fun _ _ => rfl, ?_, fun did => absurd did unexpired⟩
    intro deed error failure did
    exact absurd did (notified deed error failure)
  | failed error only unnotified unexpired =>
    refine ⟨fun notified => absurd notified unnotified, ?_, fun did => absurd did unexpired⟩
    intro deed other failure did
    have same : other = error := only deed other failure did
    subst same
    exact ⟨rfl, failure_ne_outcome failure input decision⟩
  | expired notified did whose =>
    refine ⟨fun _ unexpired => absurd did unexpired, ?_, fun _ => ?_⟩
    · intro deed error failure member
      exact absurd member (notified deed error failure)
    · exact ⟨whose.resolve_right received, rfl⟩
  | forsaken missed => exact absurd missed received

/-- A step whose decision was accepted can go on, or leave, unless its notifier has not answered. -/
theorem Course.progress (course : Course context step input seat hall moves)
    (record : Record seat hall moves) (accepted : deliveries seat.ticket moves = [decision])
    {stage : Stage} (sits : ⟨seat, stage⟩ ∈ hall.sitters) :
    (∃ deed hall', hall.Step (.does seat deed) hall') ∨
      (∃ outcome hall', hall.Step (.leaves seat outcome) hall') ∨
      ∃ call next, stage = .calling call next ∧ hall.environment.callEnd? call = none := by
  cases course with
  | asks sits₀ asking opened notified unexpired stays bound =>
    obtain rfl := record.orderly.stage_eq sits sits₀
    rcases asking.progress hall.environment with waits | ⟨deed, _, _, turn⟩
    · cases waits with
      | forNotifier call next pending => exact .inr (.inr ⟨call, next, rfl, pending⟩)
      | forDecision deadline next empty inTime =>
        have holds := record.holds
        rw [accepted, Hall.desk, empty] at holds
        cases holds
    · exact .inl ⟨deed, step_of_stage sits turn⟩
  | ends sits₀ ending cause stays bound =>
    obtain rfl := record.orderly.stage_eq sits sits₀
    rcases ending.progress hall.environment with ⟨outcome, rfl⟩ | ⟨deed, _, _, turn⟩
    · exact .inr (.inl ⟨outcome, step_of_leaving sits⟩)
    · exact .inl ⟨deed, step_of_stage sits turn⟩
  | gone absent causes bound => exact absurd rfl (absent seat (List.mem_map.mpr ⟨_, sits, rfl⟩))

/-- A step has done no more than ten steps in slow motion on any course. -/
theorem Course.turns_le (course : Course context step input seat hall moves) :
    turns seat moves ≤ 10 := by
  cases course <;> omega

/-- In every run, a decision that was accepted is the only one for its step. The step ends with the
outcome of the decision if its notifier does not fail and its limit discards no request; if the
notifier fails it ends with that error, and if its limit discards a request, which is then that of a
later step with its key, as if nobody had answered. It does end, unless it is dropped or its
notifier never answers. -/
theorem accepted_decides {environment : Environment} {earlier moves : List Move}
    {hall hall' : Hall} (opened : (opening environment).Run earlier hall) (context : Context)
    (step : Workflow.Step) (input : Value)
    (run : (hall.sit context step input).Run moves hall')
    (kept : .dropped (hall.seatFor context step input) ∉ moves) {decision : Decision}
    (accepted : decision ∈ deliveries (hall.seatFor context step input).ticket moves) :
    let seat := hall.seatFor context step input
    deliveries seat.ticket moves = [decision] ∧
    (∀ outcome, .leaves seat outcome ∈ moves →
      (Notified step seat moves → .does seat (.expired true) ∉ moves →
        outcome = decision.outcome step input) ∧
      (∀ deed error, Stage.Failure step deed error → .does seat deed ∈ moves →
        outcome = .error error ∧ outcome ≠ decision.outcome step input) ∧
      (.does seat (.expired true) ∈ moves →
        Rivalled seat moves ∧ outcome = Decision.timeout.outcome step input)) ∧
    turns seat moves ≤ 10 ∧
    ∀ stage, ⟨seat, stage⟩ ∈ hall'.sitters →
      (∃ deed later, hall'.Step (.does seat deed) later) ∨
      (∃ outcome later, hall'.Step (.leaves seat outcome) later) ∨
      ∃ call next, stage = .calling call next ∧ hall'.environment.callEnd? call = none := by
  intro seat
  obtain ⟨record, course⟩ := run.course (.begun opened.orderly context step input)
    (.begun hall context step input) kept
  have only := record.accepted accepted
  refine ⟨only, ?_, course.turns_le, fun stage sits => course.progress record only sits⟩
  intro outcome left
  cases course with
  | asks _ _ _ _ _ stays _ => exact absurd left (stays outcome)
  | ends _ _ _ stays _ => exact absurd left (stays outcome)
  | gone _ causes _ => exact (causes outcome left).outcome_eq only

/-! ## A notifier that fails after the decision -/

/-- A step that notifies somebody before it waits for the decision. -/
def announcedReview : Workflow.Step := { plainReview "review" with action := some "notify" }

/-- An environment in which the notifier takes ten milliseconds to give a result. -/
def slowNotifier (result : Except ActionError Value) : Environment :=
  { Environment.idle with
    actions := .insert .empty "notify" ⟨none, fun _ _ => .after 10 result⟩ }

/-- The step has made its request, and the notifier is going to give a result. -/
def announced (result : Except ActionError Value) : Hall :=
  (opening (slowNotifier result)).sit (.start "workflow" "run" .null) announcedReview .null

/-- The request is approved while the notifier is called, which then gives its result. -/
def approvedMeanwhile (result : Except ActionError Value) : List Move :=
  [.does firstSeat (.announced (requestOf (.start "workflow" "run" .null) announcedReview .null)),
    .does firstSeat (.lookedUp "notify" (some 0)), .does firstSeat .unseen,
    .takes ⟨"run", "review"⟩ (some 0), .sends 0 .approve .delivered, .elsewhere,
    .does firstSeat (.heard (.returned result))]

/-- While the notifier is called the request is approved, then the step hears the result. -/
theorem announced_run (result : Except ActionError Value) :
    ∃ environment, environment.desk.letter 0 = .answered .approve ∧
      (announced result).Run (approvedMeanwhile result)
        ⟨environment, [⟨firstSeat, .going (afterNotice "notify"
          (awaitDecision announcedReview .null firstSeat) (.returned result))⟩], []⟩ := by
  have approved : ∃ environment call, environment.now = 0 ∧
      environment.desk.letter 0 = .answered .approve ∧
      call = ⟨none, some (⟨10, 0⟩, result), none⟩ ∧
      (announced result).Run [.does firstSeat (.announced
            (requestOf (.start "workflow" "run" .null) announcedReview .null)),
          .does firstSeat (.lookedUp "notify" (some 0)),
          .does firstSeat .unseen, .takes ⟨"run", "review"⟩ (some 0), .sends 0 .approve .delivered]
        ⟨environment, [⟨firstSeat, .calling call (afterNotice "notify"
          (awaitDecision announcedReview .null firstSeat))⟩], []⟩ := by
    have made : (announced result).Run [] (announced result) := .here
    have told := made.next (.does [] [] [] .announce)
    have found := told.next (.does [] [] [] .lookUp)
    have called := found.next (.does [] [] [] .call)
    have taken := called.next (.takes _ ⟨"run", "review"⟩)
    have sent := taken.next (.sends _ _ [] [] 0 .approve)
    exact ⟨_, _, rfl, rfl, rfl, sent⟩
  obtain ⟨environment, call, now, letter, rfl, run⟩ := approved
  have passes : ∀ sitters, Step ⟨environment, sitters, []⟩ .elsewhere
      ⟨{ environment with now := 10 }, sitters, []⟩ := by
    intro sitters
    apply Step.elsewhere
    · rfl
    · rw [now]
      exact Nat.zero_le 10
  have passed := run.next (passes _)
  have ended : { environment with now := 10 }.callEnd?
      ⟨none, some (⟨10, 0⟩, result), none⟩ = some (.returned result) := rfl
  have heard := passed.next (.does [] [] [] (.hear ended))
  refine ⟨_, ?_, heard⟩
  rw [Environment.desk_recordEnd]
  exact letter

/-- A decision that was accepted while the notifier was called is lost when the notifier fails. -/
theorem accepted_decision_lost : ¬∀ (environment : Environment) (earlier moves : List Move)
    (hall hall' : Hall) (context : Context) (step : Workflow.Step) (input : Value)
    (decision : Decision) (outcome : Outcome), (opening environment).Run earlier hall →
    (hall.sit context step input).Run moves hall' →
    .dropped (hall.seatFor context step input) ∉ moves →
    decision ∈ deliveries (hall.seatFor context step input).ticket moves →
    .leaves (hall.seatFor context step input) outcome ∈ moves →
    outcome = decision.outcome step input := by
  intro claim
  obtain ⟨environment, letter, run⟩ := announced_run (.error ⟨"offline"⟩)
  have settled := run.next (.does [] [] [] .settle)
  have left := settled.next (.leaves _ [] [] [] _ _)
  have honoured := claim (slowNotifier (.error ⟨"offline"⟩)) [] _ (opening _) _
    (.start "workflow" "run" .null) announcedReview .null .approve
    (.error (.actionFailed "notify" ⟨"offline"⟩)) .here left (by simp [approvedMeanwhile])
    (List.mem_singleton.mpr rfl) (by simp [approvedMeanwhile]; rfl)
  exact absurd honoured (by simp [Decision.outcome, Outcome.ofValue])

/-- A decision that was accepted while the notifier was called is honoured when the notifier has
succeeded. -/
theorem approval_honoured : ∃ moves hall, (announced (.ok .null)).Run moves hall ∧
    deliveries 0 moves = [.approve] ∧ (∃ outcome, .leaves firstSeat outcome ∈ moves) ∧
    ∀ outcome, .leaves firstSeat outcome ∈ moves →
      outcome = Decision.approve.outcome announcedReview .null := by
  obtain ⟨environment, letter, run⟩ := announced_run (.ok .null)
  have waits := run.next (.does [] [] [] .await)
  have received := waits.next (.does [] [] [] (.answered letter))
  have settled := received.next (.does [] [] [] .settle)
  have left := settled.next (.leaves _ [] [] [] _ _)
  have opened : (opening (slowNotifier (.ok .null))).Run [] (opening (slowNotifier (.ok .null))) :=
    .here
  have law := accepted_decides opened (.start "workflow" "run" .null) announcedReview .null left
    (by simp [approvedMeanwhile]) (List.mem_singleton.mpr rfl)
  refine ⟨_, _, left, rfl, ⟨_, by simp [approvedMeanwhile]; rfl⟩, ?_⟩
  intro outcome member
  apply (law.2.1 outcome member).1
  · intro deed error failure did
    cases failure <;> simp [approvedMeanwhile] at did
  · simp [approvedMeanwhile]

end Hall

end Workflow
