import Workflow.Run

/-!
# The order of a run

Each phase of a run works through its list of steps up to the first failure, and the phases follow
one another. `Followed` says so of the results of one phase, `Report.Follows` of a whole report.

The invariant of a run that waits has three parts: the phases behind it are followed, its own phase
is part of the way through its list without a failure, and its error is the first failure among its
results so far. Every turn of a run keeps it, whatever the environment has become in between.
-/
namespace Workflow

/-- The step failed or ran out of time. -/
def StepResult.isFailure (result : StepResult) : Bool := result.status.isFailure

/-- The error of a run with these results: the name and the words of the first failure. -/
def firstFailure? (results : List StepResult) : Option RunError :=
  (results.find? StepResult.isFailure).map fun result => ⟨result.step, result.error.getD ""⟩

/-- The results of a phase that has worked through its list of steps up to the first failure. -/
structure Followed (phase : Phase) (steps : List Step) (results : List StepResult) : Prop where
  /-- All results belong to the phase. -/
  inPhase : ∀ result ∈ results, result.phase = phase
  /-- The results are those of the first steps of the list, in its order. -/
  inOrder : results.map StepResult.step <+: steps.map Step.name
  /-- Without a failure they are those of all steps. -/
  whole : (∀ result ∈ results, result.isFailure = false) →
    results.map StepResult.step = steps.map Step.name
  /-- A failure is the last result, and the steps before it completed or were skipped. -/
  stops : (∃ result ∈ results, result.isFailure) → ∃ earlier last, results = earlier ++ [last] ∧
    last.isFailure ∧ ∀ result ∈ earlier, result.status = .completed ∨ result.status = .skipped

/-- The report of a run that kept to the order of its definition. -/
structure Report.Follows (report : Report) (definition : Definition) : Prop where
  /-- The main results come first, then those after a failure, then those at the end. -/
  phases : report.steps =
    report.stepsIn .main ++ report.stepsIn .onError ++ report.stepsIn .onComplete
  main : Followed .main definition.steps (report.stepsIn .main)
  /-- Without a failure of a main step no step for failures ran. -/
  unneeded : (∀ result ∈ report.stepsIn .main, result.isFailure = false) →
    report.stepsIn .onError = []
  /-- After a failure of a main step the steps for failures were followed. -/
  onError : (∃ result ∈ report.stepsIn .main, result.isFailure) →
    Followed .onError definition.onError (report.stepsIn .onError)
  /-- The steps at the end were followed in any case. -/
  onComplete : Followed .onComplete definition.onComplete (report.stepsIn .onComplete)
  /-- The run failed exactly if a step did. -/
  status : report.status = .failed ↔ ∃ result ∈ report.steps, result.isFailure
  /-- The error is that of the first failure. -/
  error : report.error = firstFailure? report.steps
  /-- Every failure has a message. -/
  explained : ∀ result ∈ report.steps, result.isFailure → result.error.isSome

/-- A result that is no failure completed or was skipped. -/
theorem StepResult.status_of_not_failure {result : StepResult}
    (fine : result.isFailure = false) :
    result.status = .completed ∨ result.status = .skipped := by
  cases status : result.status <;> simp_all [isFailure, StepStatus.isFailure]

/-- The first failure of two lists of results is that of the first list, or else of the second. -/
theorem firstFailure?_append (first second : List StepResult) :
    firstFailure? (first ++ second) = (firstFailure? first <|> firstFailure? second) := by
  simp only [firstFailure?, List.find?_append]
  cases first.find? StepResult.isFailure <;> simp

/-- There is a first failure if any result is a failure. -/
theorem firstFailure?_isSome (results : List StepResult) :
    (firstFailure? results).isSome ↔ ∃ result ∈ results, result.isFailure := by
  simp [firstFailure?]

/-! ## Recording outcomes -/

namespace Progress

/-- A result names its step. -/
@[simp] theorem result_step (context : Context) (phase : Phase) (step : Step)
    (outcome : Outcome) : (result context phase step outcome).step = step.name := by
  rcases outcome with error | _ | output <;> rfl

/-- A result names its phase. -/
@[simp] theorem result_phase (context : Context) (phase : Phase) (step : Step)
    (outcome : Outcome) : (result context phase step outcome).phase = phase := by
  rcases outcome with error | _ | output <;> rfl

/-- The result of a success is no failure. -/
theorem result_ok (context : Context) (phase : Phase) (step : Step) (output : Option Output) :
    (result context phase step (.ok output)).isFailure = false := by
  cases output <;> rfl

/-- The result of an error is a failure. -/
theorem result_error (context : Context) (phase : Phase) (step : Step) (error : StepError) :
    (result context phase step (.error error)).isFailure = true := by
  cases timeout : error.isTimeout <;>
    simp [result, StepResult.isFailure, StepStatus.isFailure, timeout]

/-- The failure of a step is the first failure among its result alone. -/
theorem failure?_eq (context : Context) (phase : Phase) (step : Step) (outcome : Outcome) :
    failure? step outcome = firstFailure? [result context phase step outcome] := by
  cases outcome with
  | ok output => simp [failure?, firstFailure?, result_ok]
  | error error =>
    rw [firstFailure?, List.find?_singleton, result_error]
    rfl

/-- The error is the first failure among the results, and every failure has a message. -/
structure Sound (progress : Progress) : Prop where
  /-- The error is that of the first failure. -/
  error : progress.error = firstFailure? progress.results
  /-- Every failure has a message. -/
  explained : ∀ result ∈ progress.results, result.isFailure → result.error.isSome

/-- Nothing has failed before the first step. -/
theorem start_sound (context : Context) : (start context).Sound :=
  ⟨rfl, fun _ member => by simp [start] at member⟩

/-- Taking note of an outcome keeps the error the first failure. -/
theorem Sound.record {progress : Progress} (sound : progress.Sound) (phase : Phase) (step : Step)
    (outcome : Outcome) : (progress.record phase step outcome).Sound := by
  constructor
  · simp only [Progress.record, firstFailure?_append, sound.error,
      failure?_eq progress.context phase step outcome]
  · intro entry member failed
    rcases List.mem_append.mp member with earlier | new
    · exact sound.explained entry earlier failed
    · obtain rfl := List.mem_singleton.mp new
      cases outcome with
      | ok output => simp [result_ok] at failed
      | error error => rfl

end Progress

/-! ## One phase -/

/-- The results of a phase some steps of which are still to come. -/
structure PartWay (phase : Phase) (steps rest : List Step) (results : List StepResult) : Prop where
  /-- All results belong to the phase. -/
  inPhase : ∀ result ∈ results, result.phase = phase
  /-- The names of the results and of the steps to come make up the list. -/
  names : results.map StepResult.step ++ rest.map Step.name = steps.map Step.name
  /-- No step has failed. -/
  fine : ∀ result ∈ results, result.isFailure = false

namespace PartWay

variable {phase : Phase} {steps rest : List Step} {step : Step} {results : List StepResult}

/-- A phase that has just begun has no results. -/
theorem start (phase : Phase) (steps : List Step) : PartWay phase steps steps [] :=
  ⟨by simp, rfl, by simp⟩

/-- With no step to come the phase has been followed to its end. -/
theorem followed (partWay : PartWay phase steps [] results) : Followed phase steps results where
  inPhase := partWay.inPhase
  inOrder := ⟨[], partWay.names⟩
  whole _ := by simpa using partWay.names
  stops := by
    rintro ⟨result, member, failed⟩
    simp [partWay.fine result member] at failed

/-- A step that does not fail brings the phase one step further. -/
theorem next (partWay : PartWay phase steps (step :: rest) results) (context : Context)
    (output : Option Output) :
    PartWay phase steps rest (results ++ [Progress.result context phase step (.ok output)]) where
  inPhase result member := by
    rcases List.mem_append.mp member with earlier | new
    · exact partWay.inPhase result earlier
    · obtain rfl := List.mem_singleton.mp new
      exact Progress.result_phase ..
  names := by simpa using partWay.names
  fine result member := by
    rcases List.mem_append.mp member with earlier | new
    · exact partWay.fine result earlier
    · obtain rfl := List.mem_singleton.mp new
      exact Progress.result_ok ..

/-- A step that fails is the last one of the phase. -/
theorem failed (partWay : PartWay phase steps (step :: rest) results) (context : Context)
    (error : StepError) :
    Followed phase steps (results ++ [Progress.result context phase step (.error error)]) where
  inPhase result member := by
    rcases List.mem_append.mp member with earlier | new
    · exact partWay.inPhase result earlier
    · obtain rfl := List.mem_singleton.mp new
      exact Progress.result_phase ..
  inOrder := ⟨rest.map Step.name, by simpa using partWay.names⟩
  whole fine := by
    have last := fine (Progress.result context phase step (.error error)) (by simp)
    simp [Progress.result_error] at last
  stops _ := ⟨results, _, rfl, Progress.result_error .., fun result member =>
    StepResult.status_of_not_failure (partWay.fine result member)⟩

end PartWay

/-- Where a phase with a list of steps stands after results of earlier phases. -/
inductive PhaseState.OnTrack (phase : Phase) (steps : List Step) (before : List StepResult) :
    PhaseState → Prop where
  /-- A step waits, and those before it have not failed. -/
  | waiting {progress : Progress} {step : Step} {rest : List Step} {current : List StepResult}
      (activity : Activity) (sound : progress.Sound)
      (results : progress.results = before ++ current)
      (partWay : PartWay phase steps (step :: rest) current) :
      OnTrack phase steps before (.waiting progress step activity rest)
  /-- The phase has been followed. -/
  | finished {progress : Progress} {current : List StepResult} (sound : progress.Sound)
      (results : progress.results = before ++ current)
      (followed : Followed phase steps current) : OnTrack phase steps before (.over progress)

/-- The steps of a phase keep to their order until one waits or the phase is over. -/
theorem Run.startSteps_onTrack (setup : Setup) (phase : Phase) (steps : List Step)
    (before : List StepResult) (rest : List Step) (environment : Environment)
    (progress : Progress) (current : List StepResult) (sound : progress.Sound)
    (results : progress.results = before ++ current)
    (partWay : PartWay phase steps rest current) :
    (startSteps setup phase environment progress rest).2.OnTrack phase steps before := by
  induction rest generalizing environment progress current with
  | nil => exact .finished sound results partWay.followed
  | cons step rest ih =>
    rw [startSteps]
    obtain ⟨started, activity⟩ := (step.process setup progress.context).start environment
    cases activity with
    | ended outcome =>
      have appended : (progress.record phase step outcome).results =
          before ++ (current ++ [Progress.result progress.context phase step outcome]) := by
        simp only [Progress.record, results, List.append_assoc]
      cases outcome with
      | ok output => exact ih _ _ _ (sound.record ..) appended (partWay.next ..)
      | error error => exact .finished (sound.record ..) appended (partWay.failed ..)
    | calling | seated | awaiting | together => exact .waiting _ sound results partWay

/-! ## The phases of a run -/

/-- The steps that a phase is to run after the results of the phases before it. -/
def Definition.due (definition : Definition) (before : List StepResult) : Phase → List Step
  | .main => definition.steps
  | .onError => if (firstFailure? before).isSome then definition.onError else []
  | .onComplete => definition.onComplete

/-- The steps that a definition lists for a phase. -/
def Definition.listed (definition : Definition) : Phase → List Step
  | .main => definition.steps
  | .onError => definition.onError
  | .onComplete => definition.onComplete

/-- A run takes up only steps that are listed for the phase. -/
theorem Progress.stepsOf_listed (progress : Progress) (definition : Definition) (phase : Phase) :
    progress.stepsOf definition phase ⊆ definition.listed phase := by
  intro step member
  cases phase with
  | main | onComplete => exact member
  | onError =>
    rw [stepsOf] at member
    split at member
    · exact member
    · cases member

/-- The steps that a run takes up in a phase are those that are due. -/
theorem Progress.Sound.stepsOf {progress : Progress} (sound : progress.Sound)
    (definition : Definition) (phase : Phase) :
    progress.stepsOf definition phase = definition.due progress.results phase := by
  cases phase <;> simp [Progress.stepsOf, Definition.due, sound.error]

/-- The results of phases, the last phase first, each of which was followed. -/
inductive PhasesRan (definition : Definition) : List Phase → List StepResult → Prop where
  | none : PhasesRan definition [] []
  | phase {done : List Phase} {before current : List StepResult} {phase : Phase}
      (earlier : PhasesRan definition done before)
      (followed : Followed phase (definition.due before phase) current) :
      PhasesRan definition (phase :: done) (before ++ current)

/-- Where a run of a definition stands. -/
inductive RunState.OnTrack (definition : Definition) : RunState → Prop where
  /-- The phases behind it were followed, and its own one is part of the way. -/
  | waiting {run : Run} {done : List Phase} {before : List StepResult}
      (same : run.definition = definition)
      (order : done.reverse ++ run.phase :: run.later = Phase.all)
      (earlier : PhasesRan definition done before)
      (state : PhaseState.OnTrack run.phase (definition.due before run.phase) before
        (.waiting run.progress run.step run.activity run.rest)) :
      OnTrack definition (.waiting run)
  /-- All phases were followed. -/
  | finished {progress : Progress} (sound : progress.Sound)
      (ran : PhasesRan definition Phase.all.reverse progress.results) :
      OnTrack definition (.over progress.report)

namespace Run

/-- A run whose phase keeps to the order waits in it, or goes on with the phases after it. -/
theorem onTrack_of_phase {setup : Setup} {definition : Definition} {phase : Phase}
    {later done : List Phase} {before : List StepResult} {environment : Environment}
    {state : PhaseState} (order : done.reverse ++ phase :: later = Phase.all)
    (earlier : PhasesRan definition done before)
    (track : state.OnTrack phase (definition.due before phase) before)
    (others : ∀ progress, progress.Sound → PhasesRan definition (phase :: done) progress.results →
      (startPhases setup definition environment progress later).2.OnTrack definition) :
    (match state with
      | .over progress => startPhases setup definition environment progress later
      | .waiting progress step activity rest => (environment, .waiting
          { definition, progress, phase, step, activity, rest, later })).2.OnTrack definition := by
  cases track with
  | waiting activity sound results partWay =>
    exact .waiting rfl order earlier (.waiting activity sound results partWay)
  | finished sound results followed =>
    have ran := earlier.phase followed
    rw [← results] at ran
    exact others _ sound ran

/-- Phases keep to their order until a step waits or the run is over. -/
theorem startPhases_onTrack (setup : Setup) (definition : Definition) (later done : List Phase)
    (environment : Environment) (progress : Progress) (sound : progress.Sound)
    (order : done.reverse ++ later = Phase.all)
    (earlier : PhasesRan definition done progress.results) :
    (startPhases setup definition environment progress later).2.OnTrack definition := by
  induction later generalizing done environment progress with
  | nil =>
    have all : Phase.all.reverse = done := by simpa using congrArg List.reverse order.symm
    exact .finished sound (all ▸ earlier)
  | cons phase later ih =>
    have track := startSteps_onTrack setup phase (definition.due progress.results phase)
      progress.results (definition.due progress.results phase) environment progress []
      sound (by simp) (.start ..)
    rw [startPhases, sound.stepsOf]
    generalize startSteps setup phase environment progress
      (definition.due progress.results phase) = begun at track ⊢
    obtain ⟨environment, state⟩ := begun
    have goesOn := onTrack_of_phase order earlier track fun progress sound ran =>
      ih (phase :: done) environment progress sound (by simpa using order) ran
    cases state <;> exact goesOn

/-- A run keeps to the order of its definition from its beginning. -/
theorem start_onTrack (setup : Setup) (definition : Definition) (execution : String)
    (trigger : Value) (environment : Environment) :
    (start setup definition execution trigger environment).2.OnTrack definition :=
  startPhases_onTrack setup definition Phase.all [] _ _ (Progress.start_sound _) rfl .none

/-- A run that goes on keeps to the order of its definition, whatever its step has come to. -/
theorem goOn_onTrack (setup : Setup) (definition : Definition) (run : Run)
    (environment : Environment) (activity : Activity)
    (track : (RunState.waiting run).OnTrack definition) :
    (run.goOn setup environment activity).2.OnTrack definition := by
  cases track with
  | @waiting _ done before same order earlier state =>
    subst same
    have others : ∀ environment progress, progress.Sound →
        PhasesRan run.definition (run.phase :: done) progress.results →
        (startPhases setup run.definition environment progress run.later).2.OnTrack
          run.definition := by
      intro environment progress sound ran
      exact startPhases_onTrack setup run.definition run.later (run.phase :: done) environment
        progress sound (by simpa using order) ran
    cases state with
    | @waiting _ _ _ current _ sound results partWay =>
      cases activity with
      | ended outcome =>
        have appended : (run.progress.record run.phase run.step outcome).results =
            before ++ (current ++
              [Progress.result run.progress.context run.phase run.step outcome]) := by
          simp only [Progress.record, results, List.append_assoc]
        have recorded := sound.record run.phase run.step outcome
        cases outcome with
        | ok output =>
          have track := startSteps_onTrack setup run.phase _ before run.rest environment _ _
            recorded appended (partWay.next ..)
          simp only [goOn]
          generalize startSteps setup run.phase environment _ run.rest = begun at track ⊢
          obtain ⟨environment, state⟩ := begun
          exact onTrack_of_phase order earlier track (others environment)
        | error error =>
          have failed := partWay.failed run.progress.context error
          exact onTrack_of_phase order earlier (.finished recorded appended failed)
            (others environment)
      | calling | seated | awaiting | together =>
        exact .waiting rfl order earlier (.waiting _ sound results partWay)

end Run

/-! ## The report -/

/-- The results of a phase are none of any other phase. -/
theorem Followed.filter_other {phase other : Phase} {steps : List Step}
    {results : List StepResult} (followed : Followed phase steps results)
    (differ : phase ≠ other) : results.filter (·.phase == other) = [] := by
  refine List.filter_eq_nil_iff.mpr fun result member => ?_
  simpa [followed.inPhase result member] using differ

/-- The results of a phase are all of this phase. -/
theorem Followed.filter_self {phase : Phase} {steps : List Step} {results : List StepResult}
    (followed : Followed phase steps results) :
    results.filter (·.phase == phase) = results := by
  refine List.filter_eq_self.mpr fun result member => ?_
  simp [followed.inPhase result member]

/-- When no step is due a phase has no results. -/
theorem Followed.eq_nil {phase : Phase} {results : List StepResult}
    (followed : Followed phase [] results) : results = [] := by
  simpa using followed.inOrder

/-- All phases have run: their results in order. -/
theorem PhasesRan.phases {definition : Definition} {results : List StepResult}
    (ran : PhasesRan definition Phase.all.reverse results) :
    ∃ main onError onComplete, results = main ++ onError ++ onComplete ∧
      Followed .main definition.steps main ∧
      Followed .onError (definition.due main .onError) onError ∧
      Followed .onComplete definition.onComplete onComplete := by
  obtain _ | @⟨_, _, onComplete, _, earlier, completed⟩ := ran
  obtain _ | @⟨_, _, onError, _, earlier, handled⟩ := earlier
  obtain _ | @⟨_, _, main, _, earlier, followed⟩ := earlier
  obtain _ | _ := earlier
  exact ⟨main, onError, onComplete, by simp, followed, by simpa using handled, completed⟩

/-- A report with all phases behind it follows its definition. -/
theorem Progress.Sound.follows {progress : Progress} {definition : Definition}
    (sound : progress.Sound) (ran : PhasesRan definition Phase.all.reverse progress.results) :
    progress.report.Follows definition := by
  obtain ⟨main, onError, onComplete, results, followed, handled, completed⟩ := ran.phases
  have mainSteps : progress.report.stepsIn .main = main := by
    simp [Report.stepsIn, Progress.report, results, followed.filter_self,
      handled.filter_other (show Phase.onError ≠ .main by decide),
      completed.filter_other (show Phase.onComplete ≠ .main by decide)]
  have onErrorSteps : progress.report.stepsIn .onError = onError := by
    simp [Report.stepsIn, Progress.report, results, handled.filter_self,
      followed.filter_other (show Phase.main ≠ .onError by decide),
      completed.filter_other (show Phase.onComplete ≠ .onError by decide)]
  have onCompleteSteps : progress.report.stepsIn .onComplete = onComplete := by
    simp [Report.stepsIn, Progress.report, results, completed.filter_self,
      followed.filter_other (show Phase.main ≠ .onComplete by decide),
      handled.filter_other (show Phase.onError ≠ .onComplete by decide)]
  constructor
  case phases => rw [mainSteps, onErrorSteps, onCompleteSteps]; exact results
  case main => rwa [mainSteps]
  case unneeded =>
    rw [mainSteps, onErrorSteps]
    intro fine
    have none : ¬(firstFailure? main).isSome := by
      rw [firstFailure?_isSome]
      rintro ⟨result, member, failed⟩
      simp [fine result member] at failed
    rw [Definition.due, if_neg none] at handled
    exact handled.eq_nil
  case onError =>
    rw [mainSteps, onErrorSteps]
    intro failed
    rwa [Definition.due, if_pos ((firstFailure?_isSome main).mpr failed)] at handled
  case onComplete => rwa [onCompleteSteps]
  case status =>
    rw [show progress.report.steps = progress.results from rfl, ← firstFailure?_isSome,
      ← sound.error, Report.status, show progress.report.error = progress.error from rfl]
    cases progress.error <;> simp
  case error => exact sound.error
  case explained => exact sound.explained

/-- The report of a run that kept to the order follows the definition. -/
theorem RunState.OnTrack.follows {definition : Definition} {report : Report}
    (track : (RunState.over report).OnTrack definition) : report.Follows definition := by
  cases track with
  | finished sound ran => exact sound.follows ran

end Workflow
