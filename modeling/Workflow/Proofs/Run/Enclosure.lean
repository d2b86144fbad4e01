import Workflow.Proofs.Execution.Writes
import Workflow.Proofs.Run.Announcements

/-!
# Groups of one step

A step can be put into a group of which it is the only member, with no condition and no output of
its own. A run that executes the group in place of the step waits for the same things in the same
environment, whatever the world does between its turns (`Run.enclosed`). In the turn in which the
step ends, its group ends too: with the value of the step under the name of the step, or with null
if the step was skipped or has failed, and the context is afterwards what it is after the step. Only
the failure of the step makes a difference: it ends the phase of the step, but not that of its
group.
-/
namespace Workflow

/-- A group whose only member is a step, without a condition and an output of its own. -/
structure Step.Encloses (group step : Step) : Prop where
  parallel : group.kind = .parallel
  unconditional : group.condition = none
  unnamed : group.output = none
  only : group.steps = [step]

/-! ## In a world -/

/-- What has become of a process and its environment after a turn, if the world makes one
environment of another before each turn but the first. -/
def Process.turnIn (world : Nat → Environment → Environment) (environment : Environment)
    (process : Process) : Nat → Environment × Activity
  | 0 => process.start environment
  | turn + 1 =>
    let before := process.turnIn world environment turn
    before.2.resume (world turn before.1)

namespace Run

/-- Run steps of a phase, and what comes after the phase. -/
def startList (setup : Setup) (definition : Definition) (phase : Phase) (later : List Phase)
    (environment : Environment) (progress : Progress) (steps : List Step) :
    Environment × RunState :=
  let result := startSteps setup phase environment progress steps
  afterPhase setup definition phase later result.1 result.2

end Run

/-- Go on with a run, unless it is over. -/
def RunState.next (setup : Setup) (environment : Environment) :
    RunState → Environment × RunState
  | .waiting run => run.resume setup environment
  | .over report => (environment, .over report)

/-- What has become of a run and its environment after a turn. -/
def RunState.turnIn (setup : Setup) (world : Nat → Environment → Environment)
    (begun : Environment × RunState) : Nat → Environment × RunState
  | 0 => begun
  | turn + 1 =>
    let before := turnIn setup world begun turn
    before.2.next setup (world turn before.1)

/-! ## The process of the group -/

/-- What follows the only member of a group. -/
def afterMember (group : String) (step : Step) (outcomes : List Outcome) : Process :=
  let handled := [step].zip outcomes
  .warnAll (handled.filterMap fun entry => subStepWarning? group entry.1 entry.2)
    (runBatches group (Collected.nothing.addAll handled) [])

/-- The output of a group of one step. -/
def Step.enclosed (step : Step) (outcome : Outcome) : Output := groupOutput [(step, outcome)]

/-- A failure of the only member of a group gives a warning. -/
def Environment.warnOf (environment : Environment) (group : String) (step : Step) :
    Outcome → Environment
  | .ok _ => environment
  | .error error => environment.warn (.subStepFailed group step.name error)

/-- What becomes of a group when something has become of its only member. -/
def Activity.within (group : String) (step : Step) (environment : Environment) :
    Activity → Environment × Activity
  | .ended outcome =>
    (environment.warnOf group step outcome, .ended (.ok (some (step.enclosed outcome))))
  | activity => (environment, .together [activity] (afterMember group step))

/-- The outcome of the member is put into the output of the group. -/
theorem afterMember_start (group : String) (step : Step) (outcome : Outcome)
    (environment : Environment) :
    (afterMember group step [outcome]).start environment =
      (Activity.ended outcome).within group step environment := by
  have collected : (Collected.nothing.addAll [(step, outcome)]).output = step.enclosed outcome :=
    Collected.output_addAll _
  cases outcome <;> simp [afterMember, subStepWarning?, Process.warnAll, runBatches, Process.start,
    Activity.within, Environment.warnOf, collected]

/-- A group of a single process begins as the process does. -/
theorem together_one_start (process : Process) (group : String) (step : Step)
    (environment : Environment) :
    (Process.together [process] (afterMember group step)).start environment =
      (process.start environment).2.within group step (process.start environment).1 := by
  rw [Process.start]
  simp only [startAll]
  generalize process.start environment = begun
  obtain ⟨environment, activity⟩ := begun
  cases activity with
  | ended outcome => exact afterMember_start group step outcome environment
  | calling | seated | awaiting | together => rfl

/-- A group whose only member waits for something waits too, in the same environment. -/
theorem Activity.within_of_busy {activity : Activity} (busy : ∀ outcome, activity ≠ .ended outcome)
    (group : String) (step : Step) (environment : Environment) :
    activity.within group step environment =
      (environment, .together [activity] (afterMember group step)) := by
  cases activity with
  | ended outcome => exact absurd rfl (busy outcome)
  | calling | seated | awaiting | together => rfl

/-- A group goes on as its only member does. -/
theorem together_one_resume {activity : Activity} (busy : ∀ outcome, activity ≠ .ended outcome)
    (group : String) (step : Step) (left environment : Environment) :
    (activity.within group step left).2.resume environment =
      (activity.resume environment).2.within group step (activity.resume environment).1 := by
  rw [Activity.within_of_busy busy, Activity.resume]
  simp only [Activity.resumeAll]
  generalize activity.resume environment = resumed
  obtain ⟨environment, activity⟩ := resumed
  cases activity with
  | ended outcome => exact afterMember_start group step outcome environment
  | calling | seated | awaiting | together => rfl

variable {setup : Setup} {group step : Step}

/-- A group of one step runs the step in its own context. -/
theorem Step.Encloses.process_eq (encloses : group.Encloses step)
    (builtIn : setup.custom.find? (·.supports group) = none) (context : Context) :
    group.process setup context =
      .together [step.process setup context] (afterMember group.name step) := by
  obtain ⟨name, kind, action, input, output, condition, timeout, fallback, loopOver, steps⟩ := group
  obtain ⟨rfl, rfl, rfl, rfl⟩ := encloses
  have one : batches setup.maxParallelSteps [(step, step.process setup context)] =
      [[(step, step.process setup context)]] := by
    rw [batches, List.take_nil, List.drop_nil, batches]
  rw [Step.process, perform]
  simp only [Condition.evaluate, Option.map_none, Process.warnSome, if_true,
    execute_of_unsupported builtIn, processesOf, runGroup, List.isEmpty_cons, Bool.false_eq_true,
    if_false, one, runBatches, List.map_cons, List.map_nil]
  rfl

/-! ## The runs -/

namespace Run

/-- Where a run stands when something has become of its step. -/
def standing (setup : Setup) (definition : Definition) (phase : Phase) (later : List Phase)
    (progress : Progress) (rest : List Step) (step : Step) (environment : Environment)
    (activity : Activity) : Environment × RunState :=
  let result := afterStep setup phase progress step rest environment activity
  afterPhase setup definition phase later result.1 result.2

variable {definition : Definition} {phase : Phase} {later : List Phase} {progress : Progress}
  {rest : List Step}

/-- A list of steps begins with the first one. -/
theorem startList_cons (environment : Environment) :
    startList setup definition phase later environment progress (step :: rest) =
      let begun := (step.process setup progress.context).start environment
      standing setup definition phase later progress rest step begun.1 begun.2 := by
  rw [startList, startSteps_cons]
  rfl

/-- A run whose step waits stands there. -/
theorem standing_of_busy {activity : Activity} (busy : ∀ outcome, activity ≠ .ended outcome)
    (environment : Environment) :
    standing setup definition phase later progress rest step environment activity =
      (environment, .waiting { definition, progress, phase, step, activity, rest, later }) := by
  cases activity with
  | ended outcome => exact absurd rfl (busy outcome)
  | calling | seated | awaiting | together => rfl

/-- A run goes on as its step does. -/
theorem standing_next {activity : Activity} (busy : ∀ outcome, activity ≠ .ended outcome)
    (left environment : Environment) :
    (standing setup definition phase later progress rest step left activity).2.next setup
        environment =
      standing setup definition phase later progress rest step (activity.resume environment).1
        (activity.resume environment).2 := by
  rw [standing_of_busy busy, RunState.next, resume]
  generalize activity.resume environment = resumed
  obtain ⟨environment, activity⟩ := resumed
  cases activity with
  | ended outcome =>
    cases outcome with
    | ok output => exact goOn_ok ..
    | error error => rfl
  | calling | seated | awaiting | together => rfl

/-! ## Side by side -/

/-- A process has not ended in a turn before a given one. -/
def BusyUntil (world : Nat → Environment → Environment) (environment : Environment)
    (process : Process) (turn : Nat) : Prop :=
  ∀ earlier < turn, ∀ outcome, (process.turnIn world environment earlier).2 ≠ .ended outcome

variable {world : Nat → Environment → Environment} {environment : Environment} {turn : Nat}

/-- A run goes on with its step until the step has ended. -/
theorem turnIn_standing
    (busy : BusyUntil world environment (step.process setup progress.context) turn) :
    RunState.turnIn setup world
        (startList setup definition phase later environment progress (step :: rest)) turn =
      let reached := (step.process setup progress.context).turnIn world environment turn
      standing setup definition phase later progress rest step reached.1 reached.2 := by
  induction turn with
  | zero => exact startList_cons environment
  | succ turn ih =>
    have still := busy turn (Nat.lt_succ_self turn)
    have before := ih fun earlier within => busy earlier (Nat.lt_succ_of_lt within)
    rw [RunState.turnIn, Process.turnIn]
    simp only [before]
    rw [standing_next still, standing_of_busy still]

/-- A group goes on as its only member does until the member has ended. -/
theorem turnIn_within (encloses : group.Encloses step)
    (builtIn : setup.custom.find? (·.supports group) = none)
    (busy : BusyUntil world environment (step.process setup progress.context) turn) :
    (group.process setup progress.context).turnIn world environment turn =
      let reached := (step.process setup progress.context).turnIn world environment turn
      reached.2.within group.name step reached.1 := by
  rw [encloses.process_eq builtIn]
  induction turn with
  | zero => exact together_one_start ..
  | succ turn ih =>
    have still := busy turn (Nat.lt_succ_self turn)
    have before := ih fun earlier within => busy earlier (Nat.lt_succ_of_lt within)
    rw [Process.turnIn, Process.turnIn]
    simp only [before]
    rw [together_one_resume still, Activity.within_of_busy still]

/-- A group is busy as long as its only member is. -/
theorem busyUntil_group (encloses : group.Encloses step)
    (builtIn : setup.custom.find? (·.supports group) = none)
    (busy : BusyUntil world environment (step.process setup progress.context) turn) :
    BusyUntil world environment (group.process setup progress.context) turn := by
  intro earlier within outcome
  have before : BusyUntil world environment (step.process setup progress.context) earlier :=
    fun first sooner => busy first (Nat.lt_trans sooner within)
  rw [turnIn_within encloses builtIn before]
  simp only [Activity.within_of_busy (busy earlier within)]
  exact Activity.noConfusion

/-- How a run with a step compares with one that has a group of one step in its place, when
something has become of the step. -/
inductive Abreast (setup : Setup) (definition other : Definition) (phase : Phase)
    (later : List Phase) (progress : Progress) (rest : List Step) (step group : Step)
    (environment : Environment) : Activity → (alone grouped : Environment × RunState) → Prop where
  /-- Both wait for what the step waits for, in one environment. -/
  | waiting {activity : Activity} (next : List Outcome → Process)
      (busy : ∀ outcome, activity ≠ .ended outcome) :
      Abreast setup definition other phase later progress rest step group environment activity
        (environment, .waiting { definition, progress, phase, step, activity, rest, later })
        (environment, .waiting {
          definition := other, progress, phase, step := group
          activity := .together [activity] next, rest, later })
  /-- The group is completed with the value of the step, and both runs go on in one context. -/
  | completed {output given : Output} (value : given.value = .record [(step.name, output.value)])
      (context : (progress.record phase group (.ok (some given))).context =
        (progress.record phase step (.ok (some output))).context) :
      Abreast setup definition other phase later progress rest step group environment
        (.ended (.ok (some output)))
        (startList setup definition phase later environment
          (progress.record phase step (.ok (some output))) rest)
        (startList setup other phase later environment
          (progress.record phase group (.ok (some given))) rest)
  /-- The step was skipped: the group is completed with null, and nothing is written. -/
  | skipped {given : Output} (value : given.value = .record [(step.name, .null)])
      (silent : Progress.writes group given = [])
      (context : (progress.record phase group (.ok (some given))).context = progress.context)
      (same : (progress.record phase step (.ok none)).context = progress.context) :
      Abreast setup definition other phase later progress rest step group environment
        (.ended (.ok none))
        (startList setup definition phase later environment
          (progress.record phase step (.ok none)) rest)
        (startList setup other phase later environment
          (progress.record phase group (.ok (some given))) rest)
  /-- The step has failed: its phase is over, but the group is completed with null, nothing is
  written, and the run of the group goes on without an error. -/
  | failed {error : StepError} {given : Output} (value : given.value = .record [(step.name, .null)])
      (silent : Progress.writes group given = [])
      (context : (progress.record phase group (.ok (some given))).context = progress.context)
      (same : (progress.record phase step (.error error)).context = progress.context)
      (unharmed : (progress.record phase group (.ok (some given))).error = progress.error) :
      Abreast setup definition other phase later progress rest step group environment
        (.ended (.error error))
        (startPhases setup definition environment (progress.record phase step (.error error)) later)
        (startList setup other phase later
          (environment.warn (.subStepFailed group.name step.name error))
          (progress.record phase group (.ok (some given))) rest)

/-- The value of a group of one step has one field. -/
theorem enclosed_value (step : Step) (outcome : Outcome) :
    (step.enclosed outcome).value = .record [(step.name, outcome.valueOrNull)] := rfl

/-- A group without an output of its own writes what its only member writes. -/
theorem writes_enclosed (unnamed : group.output = none) (outcome : Outcome) :
    Progress.writes group (step.enclosed outcome) = outcome.writes step := by
  rw [Progress.writes, unnamed]
  simp [Step.enclosed, groupOutput]

/-- What has become of a step and of its group brings the two runs to where they compare. -/
theorem abreast_standing (encloses : group.Encloses step) (definition other : Definition)
    (environment : Environment) (activity : Activity) :
    Abreast setup definition other phase later progress rest step group environment activity
      (standing setup definition phase later progress rest step environment activity)
      (standing setup other phase later progress rest group
        (activity.within group.name step environment).1
        (activity.within group.name step environment).2) := by
  have writes (outcome : Outcome) : Progress.writes group (step.enclosed outcome) =
      outcome.writes step := writes_enclosed encloses.unnamed outcome
  by_cases busy : ∀ outcome, activity ≠ .ended outcome
  · rw [standing_of_busy busy, Activity.within_of_busy busy]
    exact .waiting (afterMember group.name step) busy
  · simp only [not_forall, not_not] at busy
    obtain ⟨outcome, rfl⟩ := busy
    have silent (none : outcome.writes step = []) :
        (progress.record phase group (.ok (some (step.enclosed outcome)))).context =
          progress.context := by
      change progress.context.setOutputs _ = _
      rw [writes, none]
      rfl
    rcases outcome with error | _ | output
    · have unharmed : (progress.record phase group
          (.ok (some (step.enclosed (.error error))))).error = progress.error := by
        simp [Progress.record, Progress.failure?]
      exact .failed (enclosed_value ..) (writes _) (silent rfl) rfl unharmed
    · exact .skipped (enclosed_value ..) (writes _) (silent rfl) rfl
    · refine .completed (enclosed_value ..) ?_
      change progress.context.setOutputs _ = progress.context.setOutputs _
      rw [writes]
      rfl

/-- In every turn until the step has ended, and in the one in which it ends, a run with the step
compares with one that has a group of this one step in its place: whatever kind of step it is, in
whatever context, with batches of whatever size, and whatever the world does between the turns. -/
theorem enclosed (encloses : group.Encloses step)
    (builtIn : setup.custom.find? (·.supports group) = none) (definition other : Definition)
    (phase : Phase) (later : List Phase) (progress : Progress) (rest : List Step)
    (world : Nat → Environment → Environment) (environment : Environment) (turn : Nat)
    (busy : BusyUntil world environment (step.process setup progress.context) turn) :
    let reached := (step.process setup progress.context).turnIn world environment turn
    Abreast setup definition other phase later progress rest step group reached.1 reached.2
      (RunState.turnIn setup world
        (startList setup definition phase later environment progress (step :: rest)) turn)
      (RunState.turnIn setup world
        (startList setup other phase later environment progress (group :: rest)) turn) := by
  rw [turnIn_standing busy, turnIn_standing (busyUntil_group encloses builtIn busy)]
  simp only [turnIn_within encloses builtIn busy]
  exact abreast_standing encloses definition other _ _

/-- A step that waits for five milliseconds and stores what it gives. -/
def pause : Step :=
  ⟨"pause", .action, some "wait", some (.record [("duration", .ofNat 5)]), some "slept", none, none,
    none, none, []⟩

/-- The step in a group of its own. -/
def pauseGroup : Step := ⟨"alone", .parallel, none, none, none, none, none, none, none, [pause]⟩

/-- An engine with batches of size zero, which count as batches of size one. -/
def narrow : Setup := ⟨0, none, []⟩

/-- A run about to execute one last step, in an environment in which actions are registered. -/
def lastStep (step : Step) : Environment × RunState :=
  startList narrow ⟨"w", none, none, .manual, [step], [], []⟩ .main []
    { Environment.idle with actions := .builtIn } (.start (.start "w" "run" .null)) [step]

/-- A world in which five milliseconds pass before each turn. -/
def fiveEach (_ : Nat) (environment : Environment) : Environment :=
  { environment with now := environment.now + 5 }

/-- The outputs of a run that is over. -/
def outputs? : RunState → Option Value
  | .waiting _ => none
  | .over report => some report.output

/-- A pause writes the same outputs by itself and inside a group, and the two runs go on abreast. -/
theorem enclosed_pause :
    BusyUntil fiveEach { Environment.idle with actions := .builtIn }
      (pause.process narrow (.start "w" "run" .null)) 1 ∧
    outputs? (RunState.turnIn narrow fiveEach (lastStep pause) 1).2 =
      some (.record [("slept", .record [("waited", .ofNat 5)])]) ∧
    outputs? (RunState.turnIn narrow fiveEach (lastStep pauseGroup) 1).2 =
      some (.record [("slept", .record [("waited", .ofNat 5)])]) ∧
    ∃ environment activity,
      Abreast narrow ⟨"w", none, none, .manual, [pause], [], []⟩
        ⟨"w", none, none, .manual, [pauseGroup], [], []⟩ .main [] (.start (.start "w" "run" .null))
        [] pause pauseGroup environment activity
        (RunState.turnIn narrow fiveEach (lastStep pause) 1)
        (RunState.turnIn narrow fiveEach (lastStep pauseGroup) 1) := by
  have busy : BusyUntil fiveEach { Environment.idle with actions := .builtIn }
      (pause.process narrow (.start "w" "run" .null)) 1 := by
    intro earlier within outcome ended
    obtain rfl : earlier = 0 := by omega
    have waits : Activity.outcomes? [((pause.process narrow (.start "w" "run" .null)).turnIn
        fiveEach { Environment.idle with actions := .builtIn } 0).2] = none := by decide +kernel
    rw [ended] at waits
    cases waits
  exact ⟨busy, by decide +kernel, by decide +kernel, _, _,
    enclosed ⟨rfl, rfl, rfl, rfl⟩ rfl _ _ _ _ _ _ _ _ _ busy⟩

end Run

end Workflow
