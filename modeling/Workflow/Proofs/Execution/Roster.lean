import Workflow.Proofs.Execution.Histories
import Workflow.Proofs.Execution.Requests
import Workflow.Proofs.Execution.Writes

/-!
# Groups whose members are watched

A roster is a group that has been started, with its members told apart: those of the batches that
are over, those of the batch that runs, and those that have not been started. It keeps a log of what
happens to its members, each of which is told by its position in the group: a member is dispatched
when its process is started, and it settles when the process has ended.

Watching a group changes nothing. What a roster shows to the outside is an activity
(`Roster.activity`), and it is in every turn the one that has become of the process of the group
(`Step.turn_eq_watch`).
-/
namespace Workflow

/-- What happens to a member of a group. -/
inductive MemberEvent where
  /-- It is started. -/
  | dispatched (position : Nat)
  /-- It has ended. -/
  | settled (position : Nat) (outcome : Outcome)

/-- An entry of the log of a group. -/
structure LogEntry where
  time : Nat
  event : MemberEvent

/-- A group that has been started. -/
structure Roster where
  /-- The members of the batches that are over, with their outcomes. -/
  past : List (Step × Outcome)
  /-- The members of the batch that runs; none if the group is over. -/
  batch : List (Step × Activity)
  /-- The batches that have not been started. -/
  later : List (List (Step × Process))
  /-- What has happened to the members, in order. -/
  log : List LogEntry

/-! ## Single members -/

/-- A member that has ended has settled. -/
def settlement (time position : Nat) : Activity → List LogEntry
  | .ended outcome => [⟨time, .settled position outcome⟩]
  | _ => []

/-- A member that had not ended settles if it has ended now. -/
def newSettlement (time position : Nat) (before after : Activity) : List LogEntry :=
  match before with
  | .ended _ => []
  | _ => settlement time position after

/-- Start the members of a batch in order, the first of which has a position. -/
def dispatchAll (environment : Environment) (position : Nat) :
    List (Step × Process) → Environment × List (Step × Activity) × List LogEntry
  | [] => (environment, [], [])
  | (step, process) :: rest =>
    let started := process.start environment
    let others := dispatchAll started.1 (position + 1) rest
    (others.1, (step, started.2) :: others.2.1,
      ⟨environment.now, .dispatched position⟩ ::
        (settlement started.1.now position started.2 ++ others.2.2))

/-- Go on with the members of a batch in order, the first of which has a position. -/
def attendAll (environment : Environment) (position : Nat) :
    List (Step × Activity) → Environment × List (Step × Activity) × List LogEntry
  | [] => (environment, [], [])
  | (step, activity) :: rest =>
    let resumed := activity.resume environment
    let others := attendAll resumed.1 (position + 1) rest
    (others.1, (step, resumed.2) :: others.2.1,
      newSettlement resumed.1.now position activity resumed.2 ++ others.2.2)

/-- The members of a batch with their outcomes, if all of them have ended. -/
def ended? (batch : List (Step × Activity)) : Option (List (Step × Outcome)) :=
  (Activity.outcomes? (batch.map Prod.snd)).map (batch.map Prod.fst).zip

/-- Give a warning for each member that has failed. -/
def Environment.warnEnded (environment : Environment) (group : String)
    (ended : List (Step × Outcome)) : Environment :=
  (ended.filterMap fun entry => subStepWarning? group entry.1 entry.2).foldl Environment.warn
    environment

/-- Give the warning that a verdict asks for. -/
def Environment.heed (environment : Environment) (verdict : Condition.Verdict) : Environment :=
  match verdict.unreadable with
  | some cause => environment.warn (.unreadableCondition cause.1 cause.2)
  | none => environment

/-! ## Whole groups -/

namespace Roster

/-- Start batches one after another until the members of one have not all ended. -/
def advance (group : String) (environment : Environment) (past : List (Step × Outcome))
    (log : List LogEntry) : List (List (Step × Process)) → Environment × Roster
  | [] => (environment, ⟨past, [], [], log⟩)
  | batch :: later =>
    let dispatched := dispatchAll environment past.length batch
    let log := log ++ dispatched.2.2
    match ended? dispatched.2.1 with
    | some ended => advance group (dispatched.1.warnEnded group ended) (past ++ ended) log later
    | none => (dispatched.1, ⟨past, dispatched.2.1, later, log⟩)

/-- Go on with the batch that runs, and with later ones if it is over. -/
def goOn (group : String) (environment : Environment) (roster : Roster) : Environment × Roster :=
  let attended := attendAll environment roster.past.length roster.batch
  let log := roster.log ++ attended.2.2
  match ended? attended.2.1 with
  | some ended =>
    advance group (attended.1.warnEnded group ended) (roster.past ++ ended) log roster.later
  | none => (attended.1, { roster with batch := attended.2.1, log })

/-- What follows a batch. -/
def afterBatch (group : String) (past : List (Step × Outcome)) (steps : List Step)
    (later : List (List (Step × Process))) (outcomes : List Outcome) : Process :=
  let ended := steps.zip outcomes
  .warnAll (ended.filterMap fun entry => subStepWarning? group entry.1 entry.2)
    (runBatches group (Collected.nothing.addAll (past ++ ended)) later)

/-- What the group shows: it has ended if no batch runs, and else waits for the batch. -/
def activity (group : String) (roster : Roster) : Activity :=
  if roster.batch.isEmpty then .ended (.ok (some (groupOutput roster.past)))
  else .together (roster.batch.map Prod.snd)
    (afterBatch group roster.past (roster.batch.map Prod.fst) roster.later)

end Roster

/-- A group that is watched, in a turn: its condition has been judged in a context, and its members
are those of its batches with their processes in the same context. -/
def Step.watch (setup : Setup) (context : Context) (group : Step) (moment : Nat → Environment) :
    Nat → Environment × Roster
  | 0 => Roster.advance group.name
      ((moment 0).heed (Condition.evaluate group.condition context)) [] []
      (batches setup.maxParallelSteps
        (group.steps.map fun step => (step, step.process setup context)))
  | turn + 1 => (group.watch setup context moment turn).2.goOn group.name (moment (turn + 1))

/-! ## Watching changes nothing -/

/-- To dispatch members is to start their processes. -/
theorem dispatchAll_eq (environment : Environment) (position : Nat)
    (members : List (Step × Process)) :
    (dispatchAll environment position members).1 =
        (startAll environment (members.map Prod.snd)).1 ∧
      (dispatchAll environment position members).2.1.map Prod.fst = members.map Prod.fst ∧
      (dispatchAll environment position members).2.1.map Prod.snd =
        (startAll environment (members.map Prod.snd)).2 := by
  induction members generalizing environment position with
  | nil => exact ⟨rfl, rfl, rfl⟩
  | cons member rest ih =>
    obtain ⟨left, steps, activities⟩ := ih (member.2.start environment).1 (position + 1)
    refine ⟨left, ?_, ?_⟩
    · rw [dispatchAll, List.map_cons, steps, List.map_cons]
    · rw [dispatchAll, List.map_cons, activities, List.map_cons, startAll]

/-- To attend to a batch is to let its activities go on. -/
theorem attendAll_eq (environment : Environment) (position : Nat)
    (batch : List (Step × Activity)) :
    (attendAll environment position batch).1 =
        (Activity.resumeAll environment (batch.map Prod.snd)).1 ∧
      (attendAll environment position batch).2.1.map Prod.fst = batch.map Prod.fst ∧
      (attendAll environment position batch).2.1.map Prod.snd =
        (Activity.resumeAll environment (batch.map Prod.snd)).2 := by
  induction batch generalizing environment position with
  | nil => exact ⟨rfl, rfl, rfl⟩
  | cons member rest ih =>
    obtain ⟨left, steps, activities⟩ := ih (member.2.resume environment).1 (position + 1)
    refine ⟨left, ?_, ?_⟩
    · rw [attendAll, List.map_cons, steps, List.map_cons]
    · rw [attendAll, List.map_cons, activities, List.map_cons, Activity.resumeAll]

/-- A process that begins with warnings gives them all, then begins. -/
theorem Process.start_warnAll (warnings : List Warning) (next : Process)
    (environment : Environment) :
    (Process.warnAll warnings next).start environment =
      next.start (warnings.foldl Environment.warn environment) := by
  induction warnings generalizing environment with
  | nil => rfl
  | cons warning rest ih => exact ih (environment.warn warning)

namespace Roster

variable {group : String}

/-- A batch whose members have not all ended is not empty. -/
theorem isEmpty_of_waiting {batch : List (Step × Activity)} (waits : ended? batch = none) :
    batch.isEmpty = false := by
  cases batch with
  | nil => cases waits
  | cons member rest => rfl

/-- The outcomes of a batch that has ended are those of its activities. -/
theorem ended?_eq_some {batch : List (Step × Activity)} {outcomes : List Outcome}
    (all : Activity.outcomes? (batch.map Prod.snd) = some outcomes) :
    ended? batch = some ((batch.map Prod.fst).zip outcomes) := by
  rw [ended?, all]
  rfl

/-- A batch has not ended as long as one of its members waits. -/
theorem ended?_eq_none {batch : List (Step × Activity)}
    (waits : Activity.outcomes? (batch.map Prod.snd) = none) : ended? batch = none := by
  rw [ended?, waits]
  rfl

/-- What follows a batch begins with the warnings about it. -/
theorem start_afterBatch (past : List (Step × Outcome)) (steps : List Step)
    (later : List (List (Step × Process))) (outcomes : List Outcome) (environment : Environment) :
    (afterBatch group past steps later outcomes).start environment =
      (runBatches group (Collected.nothing.addAll (past ++ steps.zip outcomes)) later).start
        (environment.warnEnded group (steps.zip outcomes)) := by
  rw [afterBatch, Process.start_warnAll]
  rfl

/-- Batches that are started show what becomes of their process. -/
theorem advance_eq (environment : Environment) (past : List (Step × Outcome))
    (log : List LogEntry) (later : List (List (Step × Process))) :
    (runBatches group (Collected.nothing.addAll past) later).start environment =
      let reached := advance group environment past log later
      (reached.1, reached.2.activity group) := by
  induction later generalizing environment past log with
  | nil =>
    have output := Collected.output_addAll past
    simp only [runBatches, Process.start, advance, activity, List.isEmpty_nil, if_true, output]
  | cons batch later ih =>
    obtain ⟨left, steps, activities⟩ := dispatchAll_eq environment past.length batch
    have follows : runBatches group (Collected.nothing.addAll past) (batch :: later) =
        .together (batch.map Prod.snd) (afterBatch group past (batch.map Prod.fst) later) := by
      rw [runBatches]
      congr 1
      funext outcomes
      rw [afterBatch, Collected.addAll_append]
    rw [follows, Process.start, advance]
    simp only [← left, ← activities]
    cases all : Activity.outcomes?
        ((dispatchAll environment past.length batch).2.1.map Prod.snd) with
    | none =>
      have waits := ended?_eq_none all
      simp only [waits, activity, isEmpty_of_waiting waits, Bool.false_eq_true, if_false, steps]
    | some outcomes =>
      have finished := ended?_eq_some all
      rw [steps] at finished
      simp only [finished, start_afterBatch]
      exact ih _ _ _

/-- A roster without a running batch has no later ones. -/
def Settled (roster : Roster) : Prop := roster.batch = [] → roster.later = []

/-- A roster whose batch waits is settled. -/
theorem settled_of_waiting {roster : Roster} (waits : ended? roster.batch = none) :
    roster.Settled := by
  intro empty
  have filled := isEmpty_of_waiting waits
  rw [empty] at filled
  cases filled

/-- A roster that has advanced as far as it can is settled. -/
theorem settled_advance (environment : Environment) (past : List (Step × Outcome))
    (log : List LogEntry) (later : List (List (Step × Process))) :
    (advance group environment past log later).2.Settled := by
  induction later generalizing environment past log with
  | nil => exact fun _ => rfl
  | cons batch later ih =>
    rw [advance]
    split
    · exact ih _ _ _
    next waits => exact settled_of_waiting waits

/-- A roster that goes on shows what becomes of the activity that it shows. -/
theorem goOn_eq {roster : Roster} (settled : roster.Settled) (environment : Environment) :
    (roster.activity group).resume environment =
      let reached := roster.goOn group environment
      (reached.1, reached.2.activity group) := by
  obtain ⟨past, batch, later, log⟩ := roster
  obtain ⟨left, steps, activities⟩ := attendAll_eq environment past.length batch
  rw [activity, goOn]
  cases batch with
  | nil =>
    obtain rfl : later = [] := settled rfl
    simp [Activity.resume, attendAll, ended?, Activity.outcomes?, advance, activity,
      Environment.warnEnded]
  | cons member rest =>
    simp only [List.isEmpty_cons, Bool.false_eq_true, if_false, Activity.resume]
    simp only [← left, ← activities]
    cases all : Activity.outcomes?
        ((attendAll environment past.length (member :: rest)).2.1.map Prod.snd) with
    | none =>
      have waits := ended?_eq_none all
      simp only [waits, activity, isEmpty_of_waiting waits, Bool.false_eq_true, if_false, steps]
    | some outcomes =>
      have finished := ended?_eq_some all
      rw [steps] at finished
      simp only [finished, start_afterBatch]
      exact advance_eq _ _ _ _

/-- A roster that has gone on is settled. -/
theorem settled_goOn {roster : Roster} (environment : Environment) :
    (roster.goOn group environment).2.Settled := by
  rw [goOn]
  split
  · exact settled_advance _ _ _ _
  next waits => exact settled_of_waiting waits

end Roster

section

variable {setup : Setup} {context : Context} {group : Step}

/-- The roster of a group is settled after every turn. -/
theorem Step.watch_settled (moment : Nat → Environment) (turn : Nat) :
    (group.watch setup context moment turn).2.Settled := by
  cases turn with
  | zero => exact Roster.settled_advance _ _ _ _
  | succ turn => exact Roster.settled_goOn _

/-- The process of a group that runs is that of its batches, after the warning about a condition
that cannot be read. -/
theorem Step.start_group (parallel : group.kind = .parallel) (inhabited : group.steps ≠ [])
    (builtIn : setup.custom.find? (·.supports group) = none) (environment : Environment)
    (runs : (Condition.evaluate group.condition context).holds = true) :
    (group.process setup context).start environment =
      (runBatches group.name .nothing (batches setup.maxParallelSteps
        (group.steps.map fun step => (step, step.process setup context)))).start
        (environment.heed (Condition.evaluate group.condition context)) := by
  obtain ⟨name, kind, action, input, output, condition, timeout, fallback, loopOver, steps⟩ := group
  obtain rfl : kind = .parallel := parallel
  have filled : (steps.map fun step => (step, step.process setup context)).isEmpty = false := by
    simpa using inhabited
  rw [Step.process, perform, processesOf_eq]
  simp only [runs, if_true, execute_of_unsupported builtIn, runGroup, filled, Bool.false_eq_true,
    if_false, Environment.heed]
  cases (Condition.evaluate condition context).unreadable <;> rfl

/-- In every turn a group that is watched shows what has become of its process. -/
theorem Step.turn_eq_watch (parallel : group.kind = .parallel) (inhabited : group.steps ≠ [])
    (builtIn : setup.custom.find? (·.supports group) = none)
    (runs : (Condition.evaluate group.condition context).holds = true)
    (moment : Nat → Environment) (turn : Nat) :
    (group.process setup context).turn moment turn =
      let watched := group.watch setup context moment turn
      (watched.1, watched.2.activity group.name) := by
  induction turn with
  | zero =>
    rw [Process.turn, Step.start_group parallel inhabited builtIn (moment 0) runs]
    exact Roster.advance_eq (moment 0 |>.heed _) [] [] _
  | succ turn ih =>
    rw [Process.turn, ih]
    exact Roster.goOn_eq (group.watch_settled moment turn) (moment (turn + 1))

end

end Workflow
