import Workflow.Proofs.Execution.Likeness
import Workflow.Proofs.Run.Course

/-!
# One run in two environments

A run of an execution does in an environment that it shares with others what it does in one of its
own. At every moment it has made the same progress in both and waits for the same step; only the
numbers of boxes and alarms of what it waits for differ.
-/
namespace Workflow

/-- A phase has got to the same in both environments, and its step holds pairs of seats. -/
inductive PhaseState.Alike (execution : String) :
    List (Seat × Seat) → PhaseState → PhaseState → Prop where
  | waiting {held : List (Seat × Seat)} {progress : Progress} {activity activity' : Activity}
      (step : Step) (rest : List Step) (own : progress.context.execution = execution)
      (alike : activity.Alike execution [] held activity') :
      Alike execution held (.waiting progress step activity rest)
        (.waiting progress step activity' rest)
  | ended {progress : Progress} (own : progress.context.execution = execution) :
      Alike execution [] (.over progress) (.over progress)

/-- A run has got to the same in both environments, and its step holds pairs of seats. -/
inductive RunState.Alike (execution : String) :
    List (Seat × Seat) → RunState → RunState → Prop where
  | waiting {held : List (Seat × Seat)} {run : Run} {activity' : Activity}
      (own : run.progress.context.execution = execution)
      (alike : run.activity.Alike execution [] held activity') :
      Alike execution held (.waiting run) (.waiting { run with activity := activity' })
  | ended (report : Report) : Alike execution [] (.over report) (.over report)

/-- A phase has got to the same in both environments, and they agree. -/
def PhaseState.Parallel (execution : String) (foreign : List Seat)
    (result result' : Environment × PhaseState) : Prop :=
  ∃ held, result.2.Alike execution held result'.2 ∧
    Environment.Mirror execution held foreign result.1 result'.1

/-- A run has got to the same in both environments, and they agree. -/
def RunState.Parallel (execution : String) (foreign : List Seat)
    (result result' : Environment × RunState) : Prop :=
  ∃ held, result.2.Alike execution held result'.2 ∧
    Environment.Mirror execution held foreign result.1 result'.1

namespace Run

variable {execution : String} {foreign : List Seat} {shared own : Environment} {setup : Setup}

/-- The steps of a phase are started in both environments until one waits or fails. -/
theorem startSteps_parallel (custom : setup.custom = []) (phase : Phase) (steps : List Step)
    {progress : Progress} (ours : progress.context.execution = execution)
    (mirror : Environment.Mirror execution [] foreign shared own) :
    PhaseState.Parallel execution foreign (startSteps setup phase shared progress steps)
      (startSteps setup phase own progress steps) := by
  induction steps generalizing shared own progress with
  | nil => exact ⟨[], .ended ours, mirror⟩
  | cons step rest ih =>
    obtain ⟨held, alike, after⟩ :=
      (step.process_alike custom ours).start (List.Subset.refl []) mirror
    rw [List.append_nil] at after
    rw [startSteps, startSteps]
    generalize (step.process setup progress.context).start shared = result at alike after ⊢
    generalize (step.process setup progress.context).start own = result' at alike after ⊢
    obtain ⟨shared, activity⟩ := result
    obtain ⟨own, activity'⟩ := result'
    cases alike with
    | ended outcome =>
      have further : (progress.record phase step outcome).context.execution = execution := by
        rw [Progress.execution_record, ours]
      cases outcome with
      | ok output => exact ih further after
      | error error => exact ⟨[], .ended further, after⟩
    | calling same later => exact ⟨[], .waiting step rest ours (.calling same later), after⟩
    | seated pair inside => exact ⟨_, .waiting step rest ours (.seated pair inside), after⟩
    | awaiting known => cases known
    | together each later => exact ⟨_, .waiting step rest ours (.together each later), after⟩

/-- The run ends in both environments. -/
theorem finish_parallel {progress : Progress}
    (mirror : Environment.Mirror execution [] foreign shared own) :
    RunState.Parallel execution foreign (finish shared progress) (finish own progress) := by
  refine ⟨[], .ended _, Environment.Mirror.quiet ?_ (Environment.quiet_publish _ _)
    (Environment.quiet_publish _ _)⟩
  split
  · exact mirror.warn _ _
  · exact mirror

/-- A phase that has got to the same in both environments is followed by the same. -/
theorem phase_parallel {definition : Definition} (phase : Phase) {later : List Phase}
    {result result' : Environment × PhaseState}
    (parallel : PhaseState.Parallel execution foreign result result')
    (goesOn : ∀ {progress : Progress}, progress.context.execution = execution →
      Environment.Mirror execution [] foreign result.1 result'.1 →
      RunState.Parallel execution foreign (startPhases setup definition result.1 progress later)
        (startPhases setup definition result'.1 progress later)) :
    RunState.Parallel execution foreign
      (match result.2 with
        | .over progress => startPhases setup definition result.1 progress later
        | .waiting progress step activity rest =>
          (result.1, .waiting { definition, progress, phase, step, activity, rest, later }))
      (match result'.2 with
        | .over progress => startPhases setup definition result'.1 progress later
        | .waiting progress step activity rest =>
          (result'.1, .waiting { definition, progress, phase, step, activity, rest, later })) := by
  obtain ⟨shared, state⟩ := result
  obtain ⟨own, state'⟩ := result'
  obtain ⟨held, alike, mirror⟩ := parallel
  cases alike with
  | waiting step rest ours alike => exact ⟨held, RunState.Alike.waiting ours alike, mirror⟩
  | ended ours => exact goesOn ours mirror

/-- Phases run in both environments until a step waits or the run is over. -/
theorem startPhases_parallel (custom : setup.custom = []) (definition : Definition)
    (phases : List Phase) {progress : Progress} (ours : progress.context.execution = execution)
    (mirror : Environment.Mirror execution [] foreign shared own) :
    RunState.Parallel execution foreign (startPhases setup definition shared progress phases)
      (startPhases setup definition own progress phases) := by
  induction phases generalizing shared own progress with
  | nil => exact finish_parallel mirror
  | cons phase later ih =>
    have begun := startSteps_parallel custom phase (progress.stepsOf definition phase) ours mirror
    have followed := phase_parallel phase begun fun ours mirror => ih ours mirror
    rw [startPhases, startPhases]
    generalize startSteps setup phase shared progress
      (progress.stepsOf definition phase) = result at followed ⊢
    generalize startSteps setup phase own progress
      (progress.stepsOf definition phase) = result' at followed ⊢
    obtain ⟨shared, state⟩ := result
    obtain ⟨own, state'⟩ := result'
    cases state <;> cases state' <;> exact followed

/-- A run begins alike in both environments. -/
theorem start_parallel (custom : setup.custom = []) (definition : Definition) (trigger : Value)
    (mirror : Environment.Mirror execution [] foreign shared own) :
    RunState.Parallel execution foreign (start setup definition execution trigger shared)
      (start setup definition execution trigger own) :=
  startPhases_parallel custom definition Phase.all rfl
    (mirror.quiet (shared.quiet_publish _) (own.quiet_publish _))

/-- A run goes on alike in both environments. -/
theorem resume_parallel (custom : setup.custom = []) {run : Run} {activity' : Activity}
    {held : List (Seat × Seat)} (ours : run.progress.context.execution = execution)
    (alike : run.activity.Alike execution [] held activity')
    (mirror : Environment.Mirror execution held foreign shared own) :
    RunState.Parallel execution foreign (run.resume setup shared)
      ({ run with activity := activity' }.resume setup own) := by
  obtain ⟨heldAfter, turned, after⟩ :=
    alike.resume (List.Subset.refl []) ((List.append_nil held).symm ▸ mirror)
  rw [List.append_nil] at after
  rw [resume, resume]
  dsimp only
  generalize run.activity.resume shared = result at turned after ⊢
  generalize activity'.resume own = result' at turned after ⊢
  obtain ⟨shared, activity⟩ := result
  obtain ⟨own, activity'⟩ := result'
  have goesOn : ∀ {progress : Progress} {shared own : Environment},
      progress.context.execution = execution →
      Environment.Mirror execution [] foreign shared own →
      RunState.Parallel execution foreign
        (startPhases setup run.definition shared progress run.later)
        (startPhases setup run.definition own progress run.later) :=
    fun ours mirror => startPhases_parallel custom run.definition run.later ours mirror
  cases turned with
  | ended outcome =>
    have further : (run.progress.record run.phase run.step outcome).context.execution =
        execution := by
      rw [Progress.execution_record, ours]
    cases outcome with
    | ok output =>
      have begun := startSteps_parallel custom run.phase run.rest further after
      have followed := phase_parallel run.phase begun fun ours mirror => goesOn ours mirror
      simp only [goOn]
      generalize startSteps setup run.phase shared _ run.rest = result at followed ⊢
      generalize startSteps setup run.phase own _ run.rest = result' at followed ⊢
      obtain ⟨shared, state⟩ := result
      obtain ⟨own, state'⟩ := result'
      cases state <;> cases state' <;> exact followed
    | error error => exact goesOn further after
  | calling same later =>
    exact ⟨[], RunState.Alike.waiting ours (.calling same later), after⟩
  | seated pair inside => exact ⟨_, RunState.Alike.waiting ours (.seated pair inside), after⟩
  | awaiting known => cases known
  | together each later =>
    exact ⟨_, RunState.Alike.waiting ours (.together each later), after⟩

end Run

end Workflow
