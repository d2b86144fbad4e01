import Workflow.Proofs.Execution.Rules

/-!
# Calls of actions

A call that begins sets an alarm for its answer and one for its limit. Where actions are steady,
their answers do not depend on how often they have been called, so two environments of one time in
which the same actions are registered answer a call alike.
-/
namespace Workflow

namespace Environment

variable (environment : Environment)

/-- No time passes when something is recorded. -/
@[simp] theorem now_record (recordedAs : Option String) (event : CallEvent) :
    (environment.record recordedAs event).now = environment.now := by
  cases recordedAs <;> rfl

/-- The alarm for the answer of a call rings when the delay is over. -/
theorem beginCall_answer (registration : Registration) (input : Value) (limit : Option Nat) :
    (environment.beginCall registration input limit).1.answer.map
        (fun answer => (answer.1.time, answer.2)) =
      match (environment.actions.call registration input).1 with
      | .after delay result => some (environment.now + delay, result)
      | .never => none := by
  unfold beginCall
  dsimp only
  cases (environment.actions.call registration input).1 with
  | after delay result => simp [setAlarm]
  | never => rfl

/-- The alarm for the limit of a call rings when the limit is over. -/
theorem beginCall_cutAt (registration : Registration) (input : Value) (limit : Option Nat) :
    (environment.beginCall registration input limit).1.cutAt.map Alarm.time =
      limit.map (environment.now + ·) := by
  unfold beginCall
  dsimp only
  cases limit with
  | none => rfl
  | some cut => split <;> simp [setLimit, setAlarm]

/-- A limit is over after its duration. -/
theorem setLimit_time (limit : Option Nat) :
    (environment.setLimit limit).1.map Alarm.time = limit.map (environment.now + ·) := by
  cases limit <;> rfl

/-- Whether an alarm has rung depends on its time alone. -/
theorem any_hasRung (alarm : Option Alarm) :
    alarm.any environment.hasRung = (alarm.map Alarm.time).any (· ≤ environment.now) := by
  cases alarm <;> rfl

/-- The end of a call depends on the times of its alarms alone. -/
theorem callEnd?_eq (call : Call) : environment.callEnd? call =
    match call.answer.map (fun answer => (answer.1.time, answer.2)) with
    | some (time, result) =>
      if time ≤ environment.now then some (.returned result)
      else if (call.cutAt.map Alarm.time).any (· ≤ environment.now) then some .cut
      else none
    | none =>
      if (call.cutAt.map Alarm.time).any (· ≤ environment.now) then some .cut else none := by
  rw [callEnd?, any_hasRung]
  cases call.answer with
  | none => rfl
  | some answer => simp [hasRung]

/-- A call whose answer takes no longer than its limit ends with the answer when the delay is
over. -/
theorem callEnd?_in_time {registration : Registration} {input : Value} {limit : Option Nat}
    {delay : Nat} {result : Except ActionError Value}
    (answer : (environment.actions.call registration input).1 = .after delay result)
    (inTime : ∀ cut, limit = some cut → delay ≤ cut) (later : Environment) :
    later.callEnd? (environment.beginCall registration input limit).1 =
      if environment.now + delay ≤ later.now then some (.returned result) else none := by
  rw [callEnd?_eq, beginCall_answer, beginCall_cutAt, answer]
  dsimp only
  split
  · rfl
  next waits =>
    cases limit with
    | none => rfl
    | some cut =>
      have notBefore := inTime cut rfl
      simp only [Option.map_some, Option.any_some, decide_eq_true_eq]
      rw [if_neg (by omega)]

/-- A call whose answer does not come within its limit is cut off when the limit is over. -/
theorem callEnd?_too_late {registration : Registration} {input : Value} {cut : Nat}
    (late : ∀ delay result,
      (environment.actions.call registration input).1 = .after delay result → cut < delay)
    {later : Environment} (notAfter : later.now ≤ environment.now + cut) :
    later.callEnd? (environment.beginCall registration input (some cut)).1 =
      if environment.now + cut ≤ later.now then some .cut else none := by
  rw [callEnd?_eq, beginCall_answer, beginCall_cutAt]
  simp only [Option.map_some, Option.any_some, decide_eq_true_eq]
  cases given : (environment.actions.call registration input).1 with
  | never => rfl
  | after delay result =>
    have tooLate := late delay result given
    dsimp only
    rw [if_neg (by omega)]

end Environment

/-- To start a call is to begin it and look for its end at once. -/
theorem Process.start_call (environment : Environment) (registration : Registration)
    (input : Value) (limit : Option Nat) (next : CallEnd → Process) :
    (Process.call registration input limit next).start environment =
      (Activity.calling (environment.beginCall registration input limit).1 next).resume
        (environment.beginCall registration input limit).2 := by
  rw [Process.start, Activity.resume]

/-! ## Steady actions -/

/-- The answers of actions do not depend on how often they have been called. -/
def ActionRegistry.Steady (registry : ActionRegistry) : Prop :=
  ∀ action ∈ registry.registrations.map Registered.action, ∀ earlier later input,
    action.answer earlier input = action.answer later input

namespace ActionRegistry

/-- The actions that are built in are steady. -/
theorem steady_builtIn : builtIn.Steady := by
  have plain : ∀ answer, ∀ earlier later input,
      (Action.plain answer).answer earlier input = (Action.plain answer).answer later input :=
    fun _ _ _ _ => rfl
  have all : builtIn.registrations.map Registered.action =
      [Action.log, Action.wait, Action.echo] := rfl
  rw [Steady, all]
  simp only [List.forall_mem_cons]
  exact ⟨plain _, plain _, plain _, by simp⟩

/-- A registry with the same actions as a steady one is steady. -/
theorem Steady.same {first later : ActionRegistry} (steady : first.Steady)
    (same : first.Same later) : later.Steady := by
  rw [Steady, same.actions]
  exact steady

/-- The action of a registration is the same in both tables. -/
theorem Same.action {first later : ActionRegistry} (same : first.Same later)
    (registration : Registration) :
    later.registrations[registration]?.map Registered.action =
      first.registrations[registration]?.map Registered.action := by
  have all := congrArg (·[registration]?) same.actions
  simpa using all

/-- A call of an action is answered by the action, as often as it may have been called. -/
theorem Same.answered {first later : ActionRegistry} (same : first.Same later)
    {registration : Registration} {action : Action}
    (known : first.registrations[registration]?.map Registered.action = some action)
    (input : Value) :
    ∃ earlier, (later.call registration input).1 = action.answer earlier input := by
  have sameAction := same.action registration
  rw [known, Option.map_eq_some_iff] at sameAction
  obtain ⟨registered, found, rfl⟩ := sameAction
  exact ⟨registered.calls, by rw [call, found]⟩

/-- Steady actions answer a call alike in both tables, and are recorded alike. -/
theorem Steady.answers {first second : ActionRegistry} (steady : first.Steady)
    (same : first.Same second) (registration : Registration) (input : Value) :
    (second.call registration input).1 = (first.call registration input).1 ∧
      (second.call registration input).2.1 = (first.call registration input).2.1 := by
  have action := same.action registration
  unfold call
  cases one : first.registrations[registration]? with
  | none =>
    rw [one, Option.map_none, Option.map_eq_none_iff] at action
    rw [action]
    exact ⟨rfl, rfl⟩
  | some registered =>
    rw [one, Option.map_some, Option.map_eq_some_iff] at action
    obtain ⟨other, found, equal⟩ := action
    rw [found]
    have known : registered.action ∈ first.registrations.map Registered.action :=
      List.mem_map_of_mem (List.mem_of_getElem? one)
    refine ⟨?_, congrArg Action.recordedAs equal⟩
    simp only [equal]
    exact steady _ known _ _ input

end ActionRegistry

end Workflow
