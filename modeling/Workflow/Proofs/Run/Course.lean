import Workflow.Proofs.Run.Motion
import Workflow.Run

/-!
# Runs in slow motion

The course of a run is its slow motion: the steps of its phases one after another, each as a tree
that moves. Beginning a run and going on with it are sequences of moves of its course.
-/
namespace Workflow

/-- Where a run is in slow motion. -/
inductive Course where
  /-- Phases lie ahead. -/
  | between (progress : Progress) (phases : List Phase)
  /-- Steps of a phase lie ahead, and phases after it. -/
  | before (progress : Progress) (phase : Phase) (steps : List Step) (later : List Phase)
  /-- A step is in progress. -/
  | during (progress : Progress) (phase : Phase) (step : Step) (motion : Motion)
      (rest : List Step) (later : List Phase)
  | ended (report : Report)

namespace Course

/-- The course of a run that begins. -/
def opening (definition : Definition) (execution : String) (trigger : Value) : Course :=
  .between (.start (.start definition.name execution trigger)) Phase.all

/-- The seats that are held by the step in progress. -/
def seats : Course → List Seat
  | .during _ _ _ motion _ _ => motion.seats
  | _ => []

/-- One move of a run. -/
inductive Step (setup : Setup) (definition : Definition) :
    Environment × Course → Move → Environment × Course → Prop where
  | opens (environment : Environment) (progress : Progress) (phase : Phase) (later : List Phase) :
      Step setup definition (environment, .between progress (phase :: later)) .elsewhere
        (environment, .before progress phase (progress.stepsOf definition phase) later)
  | begins (environment : Environment) (progress : Progress) (phase : Phase)
      (step : Workflow.Step) (rest : List Workflow.Step) (later : List Phase) :
      Step setup definition (environment, .before progress phase (step :: rest) later) .elsewhere
        (environment, .during progress phase step
          (.going (step.process setup progress.context)) rest later)
  | moves {environment environment' : Environment} {motion motion' : Motion} {move : Move}
      (progress : Progress) (phase : Phase) (step : Workflow.Step) (rest : List Workflow.Step)
      (later : List Phase) (inside : Motion.Step (environment, motion) move (environment', motion')) :
      Step setup definition (environment, .during progress phase step motion rest later) move
        (environment', .during progress phase step motion' rest later)
  /-- The step has ended without a failure. -/
  | succeeds (environment : Environment) (progress : Progress) (phase : Phase)
      (step : Workflow.Step) (output : Option Output) (rest : List Workflow.Step)
      (later : List Phase) :
      Step setup definition
        (environment, .during progress phase step (.ended (.ok output)) rest later) .elsewhere
        (environment, .before (progress.record phase step (.ok output)) phase rest later)
  /-- The step has failed, and its phase ends. -/
  | fails (environment : Environment) (progress : Progress) (phase : Phase)
      (step : Workflow.Step) (error : StepError) (rest : List Workflow.Step)
      (later : List Phase) :
      Step setup definition
        (environment, .during progress phase step (.ended (.error error)) rest later) .elsewhere
        (environment, .between (progress.record phase step (.error error)) later)
  | closes (environment : Environment) (progress : Progress) (phase : Phase) (later : List Phase) :
      Step setup definition (environment, .before progress phase [] later) .elsewhere
        (environment, .between progress later)
  | finishes (environment : Environment) (progress : Progress) :
      Step setup definition (environment, .between progress []) .elsewhere
        ((Run.finish environment progress).1, .ended progress.report)

end Course

/-! ## The steps of a run -/

/-- The process of a step asks humans only in human steps inside it, never in two of one name side
by side. -/
def Step.AsksApart (setup : Setup) (step : Step) : Prop :=
  ∀ context, (step.process setup context).AsksApart context.execution step.reviews

/-- All steps of a definition ask apart. -/
def Definition.AsksApart (setup : Setup) (definition : Definition) : Prop :=
  ∀ step ∈ definition.steps ++ definition.onError ++ definition.onComplete, step.AsksApart setup

/-- The steps of an accepted definition ask apart if its groups nest apart. -/
theorem Definition.NestsApart.asksApart {setup : Setup} {definition : Definition}
    (apart : definition.NestsApart setup.maxParallelSteps)
    (accepted : ∀ step ∈ definition.allSteps, step.Accepted)
    (custom : ∀ executor ∈ setup.custom, executor.TakesTurns) : definition.AsksApart setup := by
  intro step member context
  refine step.process_asksApart setup custom context fun inner deeper batch cut => ?_
  exact apart.batch_apart accepted (mem_descendantsOf.mpr ⟨step, member, deeper⟩) cut

/-- The steps of a phase are steps of the definition. -/
theorem Progress.stepsOf_subset (progress : Progress) (definition : Definition) (phase : Phase) :
    progress.stepsOf definition phase ⊆
      definition.steps ++ definition.onError ++ definition.onComplete := by
  intro step member
  cases phase with
  | main => exact List.mem_append_left _ (List.mem_append_left _ member)
  | onComplete => exact List.mem_append_right _ member
  | onError =>
    rw [stepsOf] at member
    split at member
    · exact List.mem_append_left _ (List.mem_append_right _ member)
    · cases member

/-- Storing outputs does not change whose outputs they are. -/
@[simp] theorem Context.execution_setOutputs (context : Context)
    (outputs : List (String × Value)) :
    (context.setOutputs outputs).execution = context.execution := by
  induction outputs generalizing context with
  | nil => rfl
  | cons output rest ih => exact ih (context.setOutput output.1 output.2)

/-- A step does not change to which execution the context belongs. -/
@[simp] theorem Progress.execution_record (progress : Progress) (phase : Phase) (step : Step)
    (outcome : Outcome) :
    (progress.record phase step outcome).context.execution = progress.context.execution := by
  rcases outcome with error | _ | output
  · rfl
  · rfl
  · exact progress.context.execution_setOutputs _

/-! ## Turns of the engine -/

/-- What the slow motion shows of a phase whose steps have got somewhere. -/
inductive PhaseState.Shows (setup : Setup) (execution : String) (phase : Phase)
    (later : List Phase) : PhaseState → Course → Prop where
  | waiting {progress : Progress} {step : Step} {activity : Activity} {rest : List Step}
      {motion : Motion} (own : progress.context.execution = execution)
      (asks : ∀ step ∈ rest, step.AsksApart setup) (shows : activity.Shows execution motion) :
      Shows setup execution phase later (.waiting progress step activity rest)
        (.during progress phase step motion rest later)
  | ended {progress : Progress} (own : progress.context.execution = execution) :
      Shows setup execution phase later (.over progress) (.between progress later)

/-- What the slow motion shows of a run, as the engine keeps it between its turns. -/
inductive RunState.Shows (setup : Setup) (definition : Definition) (execution : String) :
    RunState → Course → Prop where
  | waiting {run : Run} {motion : Motion} (same : run.definition = definition)
      (own : run.progress.context.execution = execution)
      (asks : ∀ step ∈ run.rest, step.AsksApart setup)
      (shows : run.activity.Shows execution motion) :
      Shows setup definition execution (.waiting run)
        (.during run.progress run.phase run.step motion run.rest run.later)
  | ended (report : Report) : Shows setup definition execution (.over report) (.ended report)

namespace Course

variable {setup : Setup} {definition : Definition} {execution : String}

/-- What a turn of a run comes to, its slow motion comes to as well. -/
def Reaches (setup : Setup) (definition : Definition) (execution : String)
    (environment : Environment) (course : Course) (result : Environment × RunState) : Prop :=
  ∃ moves course', Moves (Step setup definition) (environment, course) moves (result.1, course') ∧
    result.2.Shows setup definition execution course'

/-- What is reached after some moves is reached from before them. -/
theorem Reaches.after {environment middle : Environment} {course course' : Course}
    {moves : List Move} {result : Environment × RunState}
    (reaches : Reaches setup definition execution middle course' result)
    (earlier : Moves (Step setup definition) (environment, course) moves (middle, course')) :
    Reaches setup definition execution environment course result := by
  obtain ⟨later, last, others, shows⟩ := reaches
  exact ⟨moves ++ later, last, earlier.append others, shows⟩

/-- The moves of a step in progress are moves of the run. -/
theorem moves_of_motion {environment environment' : Environment} {motion motion' : Motion}
    {moves : List Move} (progress : Progress) (phase : Phase) (step : Workflow.Step)
    (rest : List Workflow.Step) (later : List Phase)
    (taken : Moves Motion.Step (environment, motion) moves (environment', motion')) :
    Moves (Step setup definition) (environment, .during progress phase step motion rest later) moves
      (environment', .during progress phase step motion' rest later) :=
  taken.within (fun state => (state.1, Course.during progress phase step state.2 rest later))
    (fun inside => .moves progress phase step rest later inside)

/-- What a turn of a phase comes to, its slow motion comes to as well. -/
def ReachesIn (setup : Setup) (definition : Definition) (execution : String) (phase : Phase)
    (later : List Phase) (environment : Environment) (course : Course)
    (result : Environment × PhaseState) : Prop :=
  ∃ moves course', Moves (Step setup definition) (environment, course) moves (result.1, course') ∧
    result.2.Shows setup execution phase later course'

/-- What a phase reaches after some moves it reaches from before them. -/
theorem ReachesIn.after {phase : Phase} {later : List Phase} {environment middle : Environment}
    {course course' : Course} {moves : List Move} {result : Environment × PhaseState}
    (reaches : ReachesIn setup definition execution phase later middle course' result)
    (earlier : Moves (Step setup definition) (environment, course) moves (middle, course')) :
    ReachesIn setup definition execution phase later environment course result := by
  obtain ⟨more, last, others, shows⟩ := reaches
  exact ⟨moves ++ more, last, earlier.append others, shows⟩

/-- A step that has ended is followed by the next ones, unless it has failed. -/
theorem reaches_next {phase : Phase} {later : List Phase} {rest : List Workflow.Step}
    {progress : Progress} (own : progress.context.execution = execution)
    (others : ∀ environment progress, progress.context.execution = execution →
      ReachesIn setup definition execution phase later environment
        (.before progress phase rest later) (Run.startSteps setup phase environment progress rest))
    (step : Workflow.Step) (outcome : Outcome) (environment : Environment) :
    ReachesIn setup definition execution phase later environment
      (.during progress phase step (.ended outcome) rest later)
      (match outcome with
        | .ok _ =>
          Run.startSteps setup phase environment (progress.record phase step outcome) rest
        | .error _ => (environment, .over (progress.record phase step outcome))) := by
  have kept : (progress.record phase step outcome).context.execution = execution := by
    rw [Progress.execution_record, own]
  cases outcome with
  | error error =>
    have failed : Moves (Step setup definition) _ _ _ :=
      .one (.fails environment progress phase step error rest later)
    exact ⟨_, _, failed, .ended kept⟩
  | ok output =>
    exact (others environment _ kept).after
      (.one (.succeeds environment progress phase step output rest later))

/-- Running the steps of a phase is a sequence of moves. -/
theorem reaches_startSteps (phase : Phase) (later : List Phase) (steps : List Workflow.Step)
    (asks : ∀ step ∈ steps, step.AsksApart setup) (environment : Environment)
    (progress : Progress) (own : progress.context.execution = execution) :
    ReachesIn setup definition execution phase later environment
      (.before progress phase steps later)
      (Run.startSteps setup phase environment progress steps) := by
  induction steps generalizing environment progress with
  | nil => exact ⟨_, _, .one (.closes environment progress phase later), .ended own⟩
  | cons step rest ih =>
    have asksRest : ∀ step ∈ rest, step.AsksApart setup :=
      fun step member => asks step (List.mem_cons_of_mem _ member)
    have first := asks step List.mem_cons_self progress.context
    rw [own] at first
    obtain ⟨moves, motion, taken, shows⟩ := Motion.reaches_start first environment
    have begins : Moves (Step setup definition) _ _ _ :=
      .one (.begins environment progress phase step rest later)
    have begun := begins.append (moves_of_motion progress phase step rest later taken)
    rw [Run.startSteps]
    generalize (step.process setup progress.context).start environment = result at begun shows ⊢
    obtain ⟨environment', activity⟩ := result
    cases shows with
    | ended outcome =>
      exact (reaches_next own (ih asksRest) step outcome environment').after begun
    | calling call next => exact ⟨_, _, begun, .waiting own asksRest (.calling call next)⟩
    | seated waits => exact ⟨_, _, begun, .waiting own asksRest (.seated waits)⟩
    | together pairs members next =>
      exact ⟨_, _, begun, .waiting own asksRest (.together pairs members next)⟩

/-- A phase that is over is followed by the next ones, and a run that waits in a phase waits. -/
theorem reaches_later {phase : Phase} {later : List Phase}
    (others : ∀ environment progress, progress.context.execution = execution →
      Reaches setup definition execution environment (.between progress later)
        (Run.startPhases setup definition environment progress later))
    {environment : Environment} {course : Course} {result : Environment × PhaseState}
    (reaches : ReachesIn setup definition execution phase later environment course result) :
    Reaches setup definition execution environment course
      (match result.2 with
        | .over progress => Run.startPhases setup definition result.1 progress later
        | .waiting progress step activity rest =>
          (result.1, .waiting { definition, progress, phase, step, activity, rest, later })) := by
  obtain ⟨environment', state⟩ := result
  obtain ⟨moves, course', taken, shows⟩ := reaches
  cases shows with
  | waiting own asks shows => exact ⟨_, _, taken, .waiting rfl own asks shows⟩
  | ended own => exact (others environment' _ own).after taken

/-- Running phases is a sequence of moves. -/
theorem reaches_startPhases (asks : definition.AsksApart setup) (phases : List Phase)
    (environment : Environment) (progress : Progress)
    (own : progress.context.execution = execution) :
    Reaches setup definition execution environment (.between progress phases)
      (Run.startPhases setup definition environment progress phases) := by
  induction phases generalizing environment progress with
  | nil => exact ⟨_, _, .one (.finishes environment progress), .ended _⟩
  | cons phase later ih =>
    have opens : Moves (Step setup definition) _ _ _ :=
      .one (.opens environment progress phase later)
    have steps : ReachesIn setup definition execution phase later environment _ _ :=
      reaches_startSteps phase later (progress.stepsOf definition phase)
        (fun step member => asks step (progress.stepsOf_subset definition phase member))
        environment progress own
    have come := reaches_later ih (steps.after opens)
    rw [Run.startPhases]
    generalize Run.startSteps setup phase environment progress
      (progress.stepsOf definition phase) = result at come ⊢
    obtain ⟨environment', _ | _⟩ := result
    · exact come
    · exact come

/-- Beginning a run is a sequence of moves, once the beginning has been announced. -/
theorem reaches_start (asks : definition.AsksApart setup) (execution : String) (trigger : Value)
    (environment : Environment) :
    Reaches setup definition execution
      (environment.publish (.runStarted execution definition.name))
      (opening definition execution trigger)
      (Run.start setup definition execution trigger environment) :=
  reaches_startPhases asks Phase.all _ _ rfl

/-- Going on with a run is a sequence of moves. -/
theorem reaches_resume (asks : definition.AsksApart setup) {run : Run} {course : Course}
    (shows : (RunState.waiting run).Shows setup definition execution course)
    (environment : Environment) :
    Reaches setup definition execution environment course (run.resume setup environment) := by
  cases shows with
  | @waiting _ motion same own asksRest shows =>
    obtain ⟨moves, motion', taken, shows'⟩ := Motion.reaches_resume shows environment
    have gone : Moves (Step setup definition) _ _ _ :=
      moves_of_motion run.progress run.phase run.step run.rest run.later taken
    rw [Run.resume]
    generalize run.activity.resume environment = result at gone shows' ⊢
    obtain ⟨environment', activity⟩ := result
    cases shows' with
    | ended outcome =>
      have next : ReachesIn setup definition execution run.phase run.later environment' _ _ :=
        reaches_next own (reaches_startSteps run.phase run.later run.rest asksRest) run.step outcome
          environment'
      rw [← same]
      exact reaches_later (same ▸ reaches_startPhases asks run.later) (same ▸ next.after gone)
    | calling call next => exact ⟨_, _, gone, .waiting same own asksRest (.calling call next)⟩
    | seated waits => exact ⟨_, _, gone, .waiting same own asksRest (.seated waits)⟩
    | together pairs members next =>
      exact ⟨_, _, gone, .waiting same own asksRest (.together pairs members next)⟩

end Course

end Workflow
