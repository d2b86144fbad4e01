import Workflow.Execution.Human
import Workflow.Proofs.Execution.Environment

/-!
# Steps that wait for humans, in slow motion

A turn of a step goes on as far as possible. Others who use the desk may come between any two of its
dealings with the desk, so a turn is taken apart here: `Stage` says what a step that holds a seat is
about to do next, and `Stage.Step` does just that. In particular a step announces its request when
it lies on the desk already, and it finds first that its limit is over, and only then discards its
request.

`Process.Solo.start` and `Activity.At.resume` say that the turns of the engine are made of these
steps.
-/
namespace Workflow

/-- What a step that holds a seat is about to do. -/
inductive Stage where
  /-- Its request lies on the desk, and it announces it. -/
  | announcing (request : Request) (process : Process)
  /-- It goes on with a process. -/
  | going (process : Process)
  | calling (call : Call) (next : CallEnd → Process)
  /-- It waits for a decision, until an alarm rings if there is a limit. -/
  | awaiting (deadline : Option Alarm) (next : Option Decision → Process)
  /-- Its limit is over, and it discards its request. -/
  | expiring (next : Option Decision → Process)
  /-- It has an outcome and leaves its seat. -/
  | leaving (outcome : Outcome)

/-- What can be told about something that a step does. -/
inductive Deed where
  | unseen
  /-- It announced its request. -/
  | announced (request : Request)
  /-- It looked up an action. -/
  | lookedUp (action : String) (found : Option Registration)
  /-- An action answered it. -/
  | heard (callEnd : CallEnd)
  /-- Its limit was over; it discarded a request or found none. -/
  | expired (discarded : Bool)

namespace Stage

/-- One step of the slow motion, with the environment and the stage before and after it. -/
inductive Step (seat : Seat) : Environment → Stage → Deed → Environment → Stage → Prop where
  | announce {environment : Environment} {request : Request} {process : Process} :
      Step seat environment (.announcing request process) (.announced request)
        (environment.publish (.reviewRequested request)) (.going process)
  | settle {environment : Environment} {outcome : Outcome} :
      Step seat environment (.going (.settle outcome)) .unseen environment (.leaving outcome)
  | warn {environment : Environment} {warning : Warning} {next : Process} :
      Step seat environment (.going (.warn warning next)) .unseen (environment.warn warning)
        (.going next)
  | lookUp {environment : Environment} {action : String} {next : Option Registration → Process} :
      Step seat environment (.going (.lookUp action next))
        (.lookedUp action (environment.actions.find? action)) environment
        (.going (next (environment.actions.find? action)))
  | call {environment : Environment} {registration : Registration} {input : Value}
      {limit : Option Nat} {next : CallEnd → Process} :
      Step seat environment (.going (.call registration input limit next)) .unseen
        (environment.beginCall registration input limit).2
        (.calling (environment.beginCall registration input limit).1 next)
  | hear {environment : Environment} {call : Call} {callEnd : CallEnd}
      {next : CallEnd → Process} (ended : environment.callEnd? call = some callEnd) :
      Step seat environment (.calling call next) (.heard callEnd)
        (environment.recordEnd call callEnd) (.going (next callEnd))
  /-- It begins to wait for a decision, and its limit begins. -/
  | await {environment : Environment} {limit : Option Nat} {next : Option Decision → Process} :
      Step seat environment (.going (.await seat limit next)) .unseen
        (environment.setLimit limit).2 (.awaiting (environment.setLimit limit).1 next)
  /-- There is a decision in its box. -/
  | answered {environment : Environment} {deadline : Option Alarm}
      {next : Option Decision → Process} {decision : Decision}
      (letter : environment.desk.letter seat.ticket = .answered decision) :
      Step seat environment (.awaiting deadline next) .unseen environment
        (.going (next (some decision)))
  /-- No decision will come any more. -/
  | forsaken {environment : Environment} {deadline : Option Alarm}
      {next : Option Decision → Process}
      (letter : environment.desk.letter seat.ticket = .abandoned ∨
        environment.desk.letter seat.ticket = .closed) :
      Step seat environment (.awaiting deadline next) .unseen environment (.going (next none))
  /-- Its box is empty and its limit is over. -/
  | ring {environment : Environment} {deadline : Option Alarm}
      {next : Option Decision → Process}
      (letter : environment.desk.letter seat.ticket = .awaited)
      (rung : deadline.any environment.hasRung) :
      Step seat environment (.awaiting deadline next) .unseen environment (.expiring next)
  /-- It discards the request under its key. -/
  | expire {environment : Environment} {next : Option Decision → Process} {entry : OpenRequest}
      (found : environment.desk.find? seat.key = some entry) :
      Step seat environment (.expiring next) (.expired true)
        { environment with desk := environment.desk.discard seat.key }
        (.going (next (some .timeout)))
  /-- There is no request under its key any more. -/
  | outrun {environment : Environment} {next : Option Decision → Process}
      (missing : environment.desk.find? seat.key = none) :
      Step seat environment (.expiring next) (.expired false) environment (.awaiting none next)

/-- Several steps of the slow motion, with what can be told about them. -/
inductive Steps (seat : Seat) : Environment → Stage → List Deed → Environment → Stage → Prop where
  | none (environment : Environment) (stage : Stage) :
      Steps seat environment stage [] environment stage
  | more {first second third : Environment} {stage middle last : Stage} {deed : Deed}
      {deeds : List Deed} (step : Step seat first stage deed second middle)
      (steps : Steps seat second middle deeds third last) :
      Steps seat first stage (deed :: deeds) third last

/-- Several steps of the slow motion, then several others. -/
theorem Steps.append {seat : Seat} {first second third : Environment}
    {stage middle last : Stage} {deeds later : List Deed}
    (steps : Steps seat first stage deeds second middle)
    (others : Steps seat second middle later third last) :
    Steps seat first stage (deeds ++ later) third last := by
  induction steps with
  | none => exact others
  | more step _ ih => exact .more step (ih others)

/-- A step in slow motion leaves the desk as it is, unless its limit is over. -/
theorem Step.desk {seat : Seat} {environment environment' : Environment} {stage stage' : Stage}
    {deed : Deed} (step : Step seat environment stage deed environment' stage') :
    (deed ≠ .expired true ∧ environment'.desk = environment.desk) ∨
      (deed = .expired true ∧ environment'.desk = environment.desk.discard seat.key) := by
  cases step with
  | call => exact .inl ⟨by simp, environment.desk_beginCall _ _ _⟩
  | hear => exact .inl ⟨by simp, environment.desk_recordEnd _ _⟩
  | await => exact .inl ⟨by simp, environment.desk_setLimit _⟩
  | expire found => exact .inr ⟨rfl, rfl⟩
  | _ => exact .inl ⟨by simp, rfl⟩

end Stage

/-! ## Turns of the engine -/

/-- A process that does nothing but what `Stage.Step` knows, and awaits decisions in one seat. -/
inductive Process.Solo (seat : Seat) : Process → Prop where
  | settle (outcome : Outcome) : Solo seat (.settle outcome)
  | warn (warning : Warning) {next : Process} (solo : next.Solo seat) :
      Solo seat (.warn warning next)
  | lookUp (action : String) {next : Option Registration → Process}
      (solo : ∀ found, (next found).Solo seat) : Solo seat (.lookUp action next)
  | call (registration : Registration) (input : Value) (limit : Option Nat)
      {next : CallEnd → Process} (solo : ∀ callEnd, (next callEnd).Solo seat) :
      Solo seat (.call registration input limit next)
  /-- It awaits a decision. -/
  | await (limit : Option Nat) {next : Option Decision → Process}
      (solo : ∀ decision, (next decision).Solo seat) : Solo seat (.await seat limit next)

/-- An activity waits in a stage, with a process of its own ahead. -/
inductive Activity.At (seat : Seat) : Activity → Stage → Prop where
  /-- It has ended, but still holds its seat. -/
  | ended (outcome : Outcome) : At seat (.ended outcome) (.leaving outcome)
  | calling (call : Call) {next : CallEnd → Process}
      (solo : ∀ callEnd, (next callEnd).Solo seat) :
      At seat (.calling call next) (.calling call next)
  /-- It waits for a decision. -/
  | awaiting (deadline : Option Alarm) {next : Option Decision → Process}
      (solo : ∀ decision, (next decision).Solo seat) :
      At seat (.awaiting seat deadline next) (.awaiting deadline next)

/-- What a step that has looked for a decision is about to do. -/
def Environment.Mail.stage (next : Option Decision → Process) : Environment.Mail → Stage
  | .waiting deadline => .awaiting deadline next
  | .received decision => .going (next decision)

/-- Looking for a decision is one look into the box and, if the limit is over, one at the desk. -/
theorem Stage.look (seat : Seat) (environment : Environment) (deadline : Option Alarm)
    (next : Option Decision → Process) :
    ∃ deeds, Stage.Steps seat environment (.awaiting deadline next) deeds
      (environment.lookForMail seat deadline).2
      ((environment.lookForMail seat deadline).1.stage next) := by
  rw [Environment.lookForMail]
  cases letter : environment.desk.letter seat.ticket with
  | answered decision => exact ⟨_, .more (.answered letter) (.none _ _)⟩
  | abandoned => exact ⟨_, .more (.forsaken (.inl letter)) (.none _ _)⟩
  | closed => exact ⟨_, .more (.forsaken (.inr letter)) (.none _ _)⟩
  | awaited =>
    by_cases rung : deadline.any environment.hasRung
    · simp only [rung, if_true]
      cases found : environment.desk.find? seat.key with
      | some entry =>
        rw [Environment.expire_of_find? found]
        exact ⟨_, .more (.ring letter rung) (.more (.expire found) (.none _ _))⟩
      | none =>
        rw [Environment.expire_of_missing found]
        exact ⟨_, .more (.ring letter rung) (.more (.outrun found) (.none _ _))⟩
    · simp only [rung, Bool.false_eq_true, if_false]
      exact ⟨_, .none _ _⟩

/-- What a step has got to when it stops: it waits in a stage, and has done no more than the slow
motion does. -/
def Activity.Reached (seat : Seat) (environment : Environment) (stage : Stage)
    (result : Environment × Activity) : Prop :=
  ∃ deeds stage', Stage.Steps seat environment stage deeds result.1 stage' ∧
    result.2.At seat stage'

/-- What is reached after some steps is reached from before them. -/
theorem Activity.Reached.after {seat : Seat} {environment middle : Environment}
    {stage stage' : Stage} {deeds : List Deed} {result : Environment × Activity}
    (reached : Activity.Reached seat middle stage' result)
    (steps : Stage.Steps seat environment stage deeds middle stage') :
    Activity.Reached seat environment stage result := by
  obtain ⟨later, last, others, ending⟩ := reached
  exact ⟨deeds ++ later, last, steps.append others, ending⟩

/-- Starting a process does what the slow motion does. -/
theorem Process.Solo.start {seat : Seat} {process : Process} (solo : process.Solo seat)
    (environment : Environment) :
    Activity.Reached seat environment (.going process) (process.start environment) := by
  induction solo generalizing environment with
  | settle outcome => exact ⟨_, _, .more .settle (.none _ _), .ended outcome⟩
  | warn warning solo ih => exact (ih _).after (.more .warn (.none _ _))
  | lookUp action solo ih => exact (ih _ environment).after (.more .lookUp (.none _ _))
  | @call registration input limit next solo ih =>
    rw [Process.start]
    have begun : Stage.Steps seat environment (.going (.call registration input limit next)) _ _ _ :=
      .more .call (.none _ _)
    cases ended : (environment.beginCall registration input limit).2.callEnd?
        (environment.beginCall registration input limit).1 with
    | some callEnd =>
      simp only [ended]
      exact ((ih callEnd _).after (.more (.hear ended) (.none _ _))).after begun
    | none =>
      simp only [ended]
      exact ⟨_, _, begun, .calling _ solo⟩
  | @await limit next solo ih =>
    rw [Process.start]
    have begun : Stage.Steps seat environment (.going (.await seat limit next)) _ _ _ :=
      .more .await (.none _ _)
    obtain ⟨deeds, looked⟩ := Stage.look seat (environment.setLimit limit).2
      (environment.setLimit limit).1 next
    cases found : (environment.setLimit limit).2.lookForMail seat (environment.setLimit limit).1 with
    | mk mail environment' =>
      rw [found] at looked
      simp only [found]
      cases mail with
      | received decision => exact ((ih decision environment').after looked).after begun
      | waiting deadline => exact ⟨_, _, begun.append looked, .awaiting deadline solo⟩

/-- Going on with an activity does what the slow motion does. -/
theorem Activity.At.resume {seat : Seat} {activity : Activity} {stage : Stage}
    (waits : activity.At seat stage) (environment : Environment) :
    Activity.Reached seat environment stage (activity.resume environment) := by
  cases waits with
  | ended outcome => exact ⟨_, _, .none _ _, .ended outcome⟩
  | @calling call next solo =>
    rw [Activity.resume]
    cases ended : environment.callEnd? call with
    | some callEnd =>
      exact ((solo callEnd).start _).after (.more (.hear ended) (.none _ _))
    | none => exact ⟨_, _, .none _ _, .calling call solo⟩
  | @awaiting deadline next solo =>
    rw [Activity.resume]
    obtain ⟨deeds, looked⟩ := Stage.look seat environment deadline next
    cases found : environment.lookForMail seat deadline with
    | mk mail environment' =>
      rw [found] at looked
      cases mail with
      | received decision => exact ((solo decision).start environment').after looked
      | waiting deadline => exact ⟨_, _, looked, .awaiting deadline solo⟩

/-! ## Steps that ask a human -/

/-- A decision is followed by its warning, if it has one, and by its outcome. -/
theorem afterDecision_some (step : Step) (input : Value) (decision : Decision) :
    afterDecision step input (some decision) =
      .warnSome (decided step input decision).1 (.settle (decided step input decision).2) := rfl

/-- What follows a decision is known to the slow motion. -/
theorem afterDecision_solo (step : Step) (input : Value) (seat : Seat)
    (decision : Option Decision) : (afterDecision step input decision).Solo seat := by
  cases decision with
  | none => exact .settle _
  | some decision =>
    rw [afterDecision_some]
    cases (decided step input decision).1 with
    | none => exact .settle _
    | some warning => exact .warn warning (.settle _)

/-- What a step does once its request has been announced is known to the slow motion. -/
theorem onceSeated_solo (context : Context) (step : Step) (input : Value) (seat : Seat) :
    (onceSeated context step input seat).Solo seat := by
  have awaits : (awaitDecision step input seat).Solo seat :=
    .await _ (afterDecision_solo step input seat)
  rw [onceSeated]
  cases step.action with
  | none => exact awaits
  | some action =>
    refine .lookUp action fun found => ?_
    cases found with
    | none => exact .settle _
    | some registration =>
      refine .call registration _ none fun callEnd => ?_
      rcases callEnd with (error | value) | _
      · exact .settle _
      · exact awaits
      · exact awaits

/-- A step that has made its request announces it and goes on. -/
theorem Activity.reached_announcing (context : Context) (step : Step) (input : Value) (seat : Seat)
    (environment : Environment) :
    Activity.Reached seat environment
      (.announcing (requestOf context step input) (onceSeated context step input seat))
      ((onceSeated context step input seat).start
        (environment.publish (.reviewRequested (requestOf context step input)))) :=
  ((onceSeated_solo context step input seat).start _).after (.more .announce (.none _ _))

end Workflow
