import Workflow.Proofs.Execution.Stages

/-!
# Asking and reacting

A step that asks a human goes through two kinds of stages: first it asks, which ends when it finds a
decision or discards its request, then it reacts to the decision. Every step of the slow motion
brings it closer to its end, and it can do one unless it waits for its notifier or for a decision
that has not come.
-/
namespace Workflow

/-- The outcome of a step for each decision about its request. -/
def Decision.outcome (step : Step) (input : Value) : Decision → Outcome
  | .approve => .ofValue (.ofFields [("approved", .bool true), ("data", input)])
  | .modify data =>
    .ofValue (.ofFields [("approved", .bool true), ("modified", .bool true), ("data", data)])
  | .reject reason => .error (.humanRejected step.name (reason.getD "no reason provided"))
  | .timeout =>
    if step.fallback = some .autoApprove then
      .ofValue (.ofFields [("approved", .bool true), ("autoApproved", .bool true), ("data", input)])
    else .error (.humanTimedOut step.name)

/-- A decision has the outcome that it should have. -/
theorem decided_outcome (step : Step) (input : Value) (decision : Decision) :
    (decided step input decision).2 = decision.outcome step input := by
  cases decision with
  | approve | modify | reject => rfl
  | timeout =>
    rw [decided, unanswered, Decision.outcome]
    rcases step.fallback with _ | _ | _ <;> rfl

/-- No decision aborts a step. -/
theorem Decision.outcome_ne_aborted (step : Step) (input : Value) (decision : Decision)
    (name : String) : decision.outcome step input ≠ .error (.humanAborted name) := by
  cases decision with
  | approve | modify | reject => simp [outcome, Outcome.ofValue]
  | timeout =>
    rw [outcome]
    split <;> simp [Outcome.ofValue]

namespace Stage

/-- A step that has made its request waits for a decision, or is about to. -/
inductive Asking (context : Context) (step : Workflow.Step) (input : Value) (seat : Seat) :
    Stage → Prop where
  /-- It announces its request. -/
  | announcing : Asking context step input seat
      (.announcing (requestOf context step input) (onceSeated context step input seat))
  /-- It looks up the action that notifies the human. -/
  | seeking (action : String) (names : step.action = some action) :
      Asking context step input seat (.going
        (notifyHuman action (requestOf context step input) (awaitDecision step input seat)))
  /-- It calls the action. -/
  | notifying (action : String) (names : step.action = some action) (registration : Registration) :
      Asking context step input seat (.going (.call registration
        (requestOf context step input).notification none
        (afterNotice action (awaitDecision step input seat))))
  | calling (action : String) (names : step.action = some action) (call : Call) :
      Asking context step input seat
        (.calling call (afterNotice action (awaitDecision step input seat)))
  | ready : Asking context step input seat (.going (awaitDecision step input seat))
  | awaiting (deadline : Option Alarm) :
      Asking context step input seat (.awaiting deadline (afterDecision step input))
  | expiring : Asking context step input seat (.expiring (afterDecision step input))

/-- A step reacts to a decision. -/
inductive Reacting (step : Workflow.Step) (input : Value) (decision : Decision) : Stage → Prop where
  | received : Reacting step input decision (.going (afterDecision step input (some decision)))
  /-- It has given its warning, if there is one. -/
  | settling : Reacting step input decision (.going (.settle (decision.outcome step input)))
  | leaving : Reacting step input decision (.leaving (decision.outcome step input))

/-- The number of steps in slow motion that are left to a step at most. -/
def rank : Stage → Nat
  | .announcing _ _ => 10
  | .going (.lookUp _ _) => 9
  | .going (.call _ _ _ _) => 8
  | .calling _ _ => 7
  | .going (.await _ _ _) => 6
  | .awaiting (some _) _ => 5
  | .expiring _ => 4
  | .awaiting none _ => 3
  | .going (.warn _ _) => 2
  | .going _ => 1
  | .leaving _ => 0

/-- No stage is farther than ten steps from the end. -/
theorem rank_le (stage : Stage) : stage.rank ≤ 10 := by
  unfold rank
  split <;> decide

/-- A step that has announced its request is closer to its end. -/
theorem rank_going_lt (process : Process) : (Stage.going process).rank < 10 := by
  cases process <;> simp [rank]

variable {context : Context} {step : Workflow.Step} {input : Value} {seat : Seat}
  {environment environment' : Environment} {stage stage' : Stage} {deed : Deed}

/-- A step that has announced its request goes on asking. -/
theorem asking_onceSeated (context : Context) (step : Workflow.Step) (input : Value) (seat : Seat) :
    Asking context step input seat (.going (onceSeated context step input seat)) := by
  cases names : step.action with
  | none =>
    rw [onceSeated, names]
    exact .ready
  | some action =>
    rw [onceSeated, names]
    exact .seeking action names

/-- What a step in slow motion of a step that asks comes to. -/
inductive Turn (context : Context) (step : Workflow.Step) (input : Value) (seat : Seat)
    (environment environment' : Environment) : Stage → Deed → Prop where
  /-- It goes on asking; it waits without a limit that it has only if it found no request. -/
  | asks {stage : Stage} {deed : Deed} (asking : stage.Asking context step input seat)
      (desk : environment'.desk = environment.desk) (unexpired : deed ≠ .expired true)
      (outrun : stage = .awaiting none (afterDecision step input) → step.timeout.isSome →
        environment.desk.find? seat.key = none) :
      Turn context step input seat environment environment' stage deed
  /-- It finds a decision in its box. -/
  | receives (decision : Decision)
      (letter : environment.desk.letter seat.ticket = .answered decision)
      (desk : environment'.desk = environment.desk) :
      Turn context step input seat environment environment'
        (.going (afterDecision step input (some decision))) .unseen
  /-- It finds that no decision will come. -/
  | forsaken (letter : environment.desk.letter seat.ticket = .abandoned ∨
        environment.desk.letter seat.ticket = .closed) :
      Turn context step input seat environment environment'
        (.going (afterDecision step input none)) .unseen
  /-- Its limit is over, and it discards the request under its key. -/
  | expires (entry : OpenRequest) (found : environment.desk.find? seat.key = some entry)
      (desk : environment'.desk = environment.desk.discard seat.key) :
      Turn context step input seat environment environment'
        (.going (afterDecision step input (some .timeout))) (.expired true)

/-- A step that asks does one of these things, if its notifier does not fail. -/
theorem Asking.turn (asking : stage.Asking context step input seat)
    (move : Step seat environment stage deed environment' stage')
    (found : ∀ action, deed ≠ .lookedUp action none)
    (notified : ∀ error, deed ≠ .heard (.returned (.error error))) :
    Turn context step input seat environment environment' stage' deed := by
  cases asking with
  | announcing =>
    cases move with
    | announce =>
      exact .asks (asking_onceSeated context step input seat) rfl (by simp) (by simp)
  | seeking action names =>
    cases move with
    | lookUp =>
      cases registered : environment.actions.find? action with
      | none => exact absurd (by rw [registered]) (found action)
      | some registration =>
        exact .asks (.notifying action names registration) rfl (by simp) (by simp)
  | notifying action names registration =>
    cases move with
    | call => exact .asks (.calling action names _) (by simp) (by simp) (by simp)
  | calling action names call =>
    cases move with
    | @hear _ answer _ ended =>
      rcases answer with (error | value) | _
      · exact absurd rfl (notified error)
      · exact .asks .ready (by simp) (by simp) (by simp [afterNotice, awaitDecision])
      · exact .asks .ready (by simp) (by simp) (by simp [afterNotice, awaitDecision])
  | ready =>
    cases move with
    | await =>
      refine .asks (.awaiting _) (by simp) (by simp) fun same limited => ?_
      have unlimited : (environment.setLimit step.timeout).1 = none := by
        injection same
      have some := environment.setLimit_isSome step.timeout
      rw [unlimited, limited] at some
      exact absurd some (by decide)
  | awaiting deadline =>
    cases move with
    | answered letter => exact .receives _ letter rfl
    | forsaken letter => exact .forsaken letter
    | ring letter rung => exact .asks .expiring rfl (by simp) (by simp)
  | expiring =>
    cases move with
    | expire lies => exact .expires _ lies rfl
    | outrun missing => exact .asks (.awaiting none) rfl (by simp) fun _ _ => missing

/-- A step that reacts goes on reacting to the same decision, and the desk does not concern it. -/
theorem Reacting.next {decision : Decision} (reacting : stage.Reacting step input decision)
    (move : Step seat environment stage deed environment' stage') :
    stage'.Reacting step input decision ∧ environment'.desk = environment.desk ∧
      deed = .unseen := by
  cases reacting with
  | received =>
    rw [afterDecision_some, decided_outcome] at move
    cases warned : (decided step input decision).1 with
    | none =>
      rw [warned] at move
      cases move with
      | settle => exact ⟨.leaving, rfl, rfl⟩
    | some warning =>
      rw [warned] at move
      cases move with
      | warn => exact ⟨.settling, rfl, rfl⟩
  | settling =>
    cases move with
    | settle => exact ⟨.leaving, rfl, rfl⟩
  | leaving => cases move

/-- What a step does with a decision takes it at most two steps. -/
theorem rank_afterDecision (step : Workflow.Step) (input : Value) (decision : Option Decision) :
    (Stage.going (afterDecision step input decision)).rank ≤ 2 := by
  cases decision with
  | none => exact Nat.le_succ 1
  | some decision =>
    rw [afterDecision_some]
    cases (decided step input decision).1 with
    | none => exact Nat.le_succ 1
    | some warning => exact Nat.le_refl 2

/-- Every step in slow motion brings a step that asks closer to its end. -/
theorem Asking.rank_lt (asking : stage.Asking context step input seat)
    (move : Step seat environment stage deed environment' stage') : stage'.rank < stage.rank := by
  have reaction := rank_afterDecision step input
  cases asking with
  | announcing =>
    cases move with
    | announce => exact rank_going_lt _
  | seeking action names =>
    cases move with
    | lookUp => cases environment.actions.find? action <;> simp [notifyHuman, rank]
  | notifying action names registration =>
    cases move with
    | call => simp [rank]
  | calling action names call =>
    cases move with
    | @hear _ answer _ ended =>
      rcases answer with (error | value) | _ <;> simp [afterNotice, awaitDecision, rank]
  | ready =>
    cases move with
    | await => cases step.timeout <;> simp [awaitDecision, Environment.setLimit, rank]
  | awaiting deadline =>
    have waits : 3 ≤ (Stage.awaiting deadline (afterDecision step input)).rank := by
      cases deadline <;> simp [rank]
    cases move with
    | answered => exact Nat.lt_of_le_of_lt (reaction _) waits
    | forsaken => exact Nat.lt_of_le_of_lt (reaction _) waits
    | ring letter rung =>
      cases deadline with
      | none => exact absurd rung (by simp)
      | some alarm => simp [rank]
  | expiring =>
    cases move with
    | expire => exact Nat.lt_of_le_of_lt (reaction _) (by simp [rank])
    | outrun => simp [rank]

/-- Every step in slow motion brings a step that reacts closer to its end. -/
theorem Reacting.rank_lt {decision : Decision} (reacting : stage.Reacting step input decision)
    (move : Step seat environment stage deed environment' stage') : stage'.rank < stage.rank := by
  cases reacting with
  | received =>
    rw [afterDecision_some] at move ⊢
    cases warned : (decided step input decision).1 with
    | none =>
      rw [warned] at move
      cases move with
      | settle => simp [Process.warnSome, rank]
    | some warning =>
      rw [warned] at move
      cases move with
      | warn => simp [Process.warnSome, rank]
  | settling =>
    cases move with
    | settle => simp [rank]
  | leaving => cases move

/-- What a step that asks may be waiting for: its notifier, or a decision while its limit is not
over. -/
inductive Waits (environment : Environment) (seat : Seat) : Stage → Prop where
  | forNotifier (call : Call) (next : CallEnd → Process)
      (pending : environment.callEnd? call = none) : Waits environment seat (.calling call next)
  | forDecision (deadline : Option Alarm) (next : Option Decision → Process)
      (letter : environment.desk.letter seat.ticket = .awaited)
      (inTime : deadline.any environment.hasRung = false) :
      Waits environment seat (.awaiting deadline next)

/-- A step that asks can go on, unless it waits for something that has not come. -/
theorem Asking.progress (asking : stage.Asking context step input seat)
    (environment : Environment) : Waits environment seat stage ∨
      ∃ deed environment' stage', Step seat environment stage deed environment' stage' := by
  cases asking with
  | announcing => exact .inr ⟨_, _, _, .announce⟩
  | seeking action names => exact .inr ⟨_, _, _, .lookUp⟩
  | notifying action names registration => exact .inr ⟨_, _, _, .call⟩
  | calling action names call =>
    cases ended : environment.callEnd? call with
    | none => exact .inl (.forNotifier call _ ended)
    | some callEnd => exact .inr ⟨_, _, _, .hear ended⟩
  | ready => exact .inr ⟨_, _, _, .await⟩
  | awaiting deadline =>
    cases letter : environment.desk.letter seat.ticket with
    | answered decision => exact .inr ⟨_, _, _, .answered letter⟩
    | abandoned => exact .inr ⟨_, _, _, .forsaken (.inl letter)⟩
    | closed => exact .inr ⟨_, _, _, .forsaken (.inr letter)⟩
    | awaited =>
      by_cases rung : deadline.any environment.hasRung
      · exact .inr ⟨_, _, _, .ring letter rung⟩
      · exact .inl (.forDecision deadline _ letter (by simpa using rung))
  | expiring =>
    cases found : environment.desk.find? seat.key with
    | some entry => exact .inr ⟨_, _, _, .expire found⟩
    | none => exact .inr ⟨_, _, _, .outrun found⟩

/-- A step that reacts can go on until it has its outcome. -/
theorem Reacting.progress {decision : Decision} (reacting : stage.Reacting step input decision)
    (environment : Environment) : (∃ outcome, stage = .leaving outcome) ∨
      ∃ deed environment' stage', Step seat environment stage deed environment' stage' := by
  cases reacting with
  | received =>
    rw [afterDecision_some]
    cases (decided step input decision).1 with
    | none => exact .inr ⟨_, _, _, .settle⟩
    | some warning => exact .inr ⟨_, _, _, .warn⟩
  | settling => exact .inr ⟨_, _, _, .settle⟩
  | leaving => exact .inl ⟨_, rfl⟩

end Stage

end Workflow
