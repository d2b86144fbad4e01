import Workflow.Proofs.Execution.Endings
import Workflow.Proofs.Host.Places

/-!
# The chronicle of a run

A run is told by entries, one for each step that ran or was skipped, in the order of the results.
Each entry is judged in the context that the writes of the entries before it have left, across all
phases, and nothing else reaches the context. The record at the end holds the last value that was
written under each name.

The input of a result is that of the step in its context, unless the step was skipped: then nothing
was executed and the result has no input, whatever the step declares.
-/
namespace Workflow

/-- What became of a step of a run. -/
structure Entry where
  phase : Phase
  step : Step
  outcome : Outcome

/-- What the step of an entry wrote. -/
def Entry.writes (entry : Entry) : List (String × Value) := entry.outcome.writes entry.step

/-- The context after the writes of entries. -/
def Context.following (first : Context) (entries : List Entry) : Context :=
  first.setOutputs (entries.flatMap Entry.writes)

/-- The last entry writes its outputs after those of all earlier ones. -/
theorem Context.following_concat (first : Context) (entries : List Entry) (entry : Entry) :
    first.following (entries ++ [entry]) = (first.following entries).setOutputs entry.writes := by
  rw [following, List.flatMap_append, setOutputs_append, List.flatMap_singleton, ← following]

/-- The condition of a step holds in a context. -/
def Step.Runs (step : Step) (context : Context) : Prop :=
  (Condition.evaluate step.condition context).holds = true

instance (step : Step) (context : Context) : Decidable (step.Runs context) :=
  inferInstanceAs (Decidable (_ = true))

/-- An entry tells what became of a step of a definition in a context, with its result. -/
structure Entry.Tells (entry : Entry) (setup : Setup) (definition : Definition)
    (context : Context) (result : StepResult) : Prop where
  listed : entry.step ∈ definition.listed entry.phase
  /-- The step ended in the context. -/
  ends : entry.step.Ends setup context entry.outcome
  recorded : result = Progress.result context entry.phase entry.step entry.outcome
  /-- A step that ran has an input exactly if it declares one. -/
  declared : entry.step.Runs context → result.input.isSome = entry.step.input.isSome
  /-- The input of a step that ran is what was executed with, null if there is none. -/
  executed : entry.step.Runs context →
    result.input.getD .null = entry.step.resolvedInput context
  /-- A step that was skipped has no input. -/
  idle : ¬entry.step.Runs context → result.input = none

/-- Results are told by entries, each in the context that the ones before it have left. -/
structure Chronicle (setup : Setup) (definition : Definition) (first : Context)
    (entries : List Entry) (results : List StepResult) : Prop where
  length : results.length = entries.length
  each : ∀ earlier entry later, entries = earlier ++ entry :: later → ∃ result,
    results[earlier.length]? = some result ∧
      entry.Tells setup definition (first.following earlier) result

/-- How a step ends determines whether its result has an input. -/
theorem Step.Ends.tells {setup : Setup} {definition : Definition} {context : Context}
    {step : Step} {outcome : Outcome} (ends : step.Ends setup context outcome) {phase : Phase}
    (listed : step ∈ definition.listed phase) :
    Entry.Tells ⟨phase, step, outcome⟩ setup definition context
      (Progress.result context phase step outcome) := by
  -- Of a step that ran the result has the input, since it was not skipped.
  have input : step.Runs context →
      (Progress.result context phase step outcome).input =
        step.input.map (resolveInput context) := by
    intro runs
    cases ends with
    | skipped idle => exact absurd runs (by simp [Step.Runs, idle])
    | single _ _ _ plain =>
      cases outcome with
      | error error => rfl
      | ok given =>
        obtain ⟨value, rfl⟩ := plain given rfl
        rfl
    | group => rfl
    | empty => rfl
  refine ⟨listed, ends, rfl, fun runs => ?_, fun runs => ?_, fun idle => ?_⟩
  · rw [input runs, Option.isSome_map]
  · rw [input runs]
    rfl
  · cases ends with
    | skipped => rfl
    | single runs | group runs | empty runs => exact absurd runs idle

/-! ## Progress -/

namespace Chronicle

variable {setup : Setup} {definition : Definition} {first : Context} {entries : List Entry}
  {results : List StepResult}

/-- A chronicle begins without entries. -/
theorem begins : Chronicle setup definition first [] [] :=
  ⟨rfl, fun earlier entry later same => by simp at same⟩

/-- The chronicle goes on with a step that ended in the context of what was written so far. -/
theorem goesOn (chronicle : Chronicle setup definition first entries results) {entry : Entry}
    {result : StepResult} (tells : entry.Tells setup definition (first.following entries) result) :
    Chronicle setup definition first (entries ++ [entry]) (results ++ [result]) := by
  refine ⟨by simp [chronicle.length], fun earlier other later same => ?_⟩
  rcases List.eq_nil_or_concat later with rfl | ⟨between, last, rfl⟩
  · obtain ⟨rfl, sameEntry⟩ := List.append_inj' same rfl
    obtain rfl := List.singleton_inj.mp sameEntry
    refine ⟨result, ?_, tells⟩
    rw [← chronicle.length, List.getElem?_concat_length]
  · rw [List.concat_eq_append, ← List.cons_append, ← List.append_assoc] at same
    obtain ⟨before, -⟩ := List.append_inj' same rfl
    obtain ⟨told, found, tellsOther⟩ := chronicle.each earlier other between before
    refine ⟨told, ?_, tellsOther⟩
    rw [List.getElem?_append_left (List.getElem?_eq_some_iff.mp found).1, found]

end Chronicle

/-- The progress of a run is told by entries, and its context is what they wrote. -/
def Progress.ToldBy (progress : Progress) (setup : Setup) (definition : Definition)
    (first : Context) (entries : List Entry) : Prop :=
  Chronicle setup definition first entries progress.results ∧
    progress.context = first.following entries

/-- A run that has just begun is told by no entries. -/
theorem Progress.start_toldBy (setup : Setup) (definition : Definition) (first : Context) :
    (Progress.start first).ToldBy setup definition first [] := ⟨.begins, rfl⟩

/-- Taking note of how a step ended adds its entry. -/
theorem Progress.ToldBy.record {progress : Progress} {setup : Setup} {definition : Definition}
    {first : Context} {entries : List Entry}
    (told : progress.ToldBy setup definition first entries) {phase : Phase} {step : Step}
    {outcome : Outcome} (listed : step ∈ definition.listed phase)
    (ends : step.Ends setup progress.context outcome) :
    (progress.record phase step outcome).ToldBy setup definition first
      (entries ++ [⟨phase, step, outcome⟩]) := by
  obtain ⟨chronicle, context⟩ := told
  refine ⟨chronicle.goesOn (context ▸ ends.tells listed), ?_⟩
  rw [Context.following_concat, ← context]
  rcases outcome with error | _ | output <;> rfl

/-! ## Turns -/

/-- Where a phase has got to is told. -/
inductive PhaseState.Told (setup : Setup) (definition : Definition) (first : Context)
    (phase : Phase) : PhaseState → Prop where
  | waiting {progress : Progress} {entries : List Entry} {step : Step} {activity : Activity}
      {rest : List Step} (told : progress.ToldBy setup definition first entries)
      (listed : step :: rest ⊆ definition.listed phase)
      (comes : (step.process setup progress.context).ComesTo activity) :
      Told setup definition first phase (.waiting progress step activity rest)
  | ended {progress : Progress} {entries : List Entry}
      (told : progress.ToldBy setup definition first entries) :
      Told setup definition first phase (.over progress)

/-- Where a run has got to is told. -/
inductive RunState.Told (setup : Setup) (definition : Definition) (first : Context) :
    RunState → Prop where
  | waiting {run : Run} {entries : List Entry} (same : run.definition = definition)
      (told : run.progress.ToldBy setup definition first entries)
      (listed : run.step :: run.rest ⊆ definition.listed run.phase)
      (comes : (run.step.process setup run.progress.context).ComesTo run.activity) :
      Told setup definition first (.waiting run)
  | ended {progress : Progress} {entries : List Entry}
      (told : progress.ToldBy setup definition first entries) :
      Told setup definition first (.over progress.report)

namespace Run

variable {setup : Setup} {definition : Definition} {first : Context}

/-- The steps of a phase are told until one waits or the phase is over. -/
theorem startSteps_told (custom : setup.custom = []) (phase : Phase) (steps : List Step)
    (environment : Environment) {progress : Progress} {entries : List Entry}
    (told : progress.ToldBy setup definition first entries)
    (listed : steps ⊆ definition.listed phase) :
    (startSteps setup phase environment progress steps).2.Told setup definition first phase := by
  induction steps generalizing environment progress entries with
  | nil => exact .ended told
  | cons step rest ih =>
    have comes : (step.process setup progress.context).ComesTo
        ((step.process setup progress.context).start environment).2 :=
      Process.ComesTo.start environment
    rw [startSteps]
    generalize (step.process setup progress.context).start environment = started at comes ⊢
    obtain ⟨started, activity⟩ := started
    cases activity with
    | ended outcome =>
      have recorded := told.record (listed List.mem_cons_self)
        (step.ends_of_comesTo custom comes)
      cases outcome with
      | ok output =>
        exact ih started recorded fun _ member => listed (List.mem_cons_of_mem _ member)
      | error error => exact .ended recorded
    | calling | seated | awaiting | together => exact .waiting told listed comes

/-- A phase that is told is followed by phases that are told. -/
theorem told_of_phase {phase : Phase} {later : List Phase} {environment : Environment}
    {state : PhaseState} (told : state.Told setup definition first phase)
    (others : ∀ {progress : Progress} {entries : List Entry},
      progress.ToldBy setup definition first entries →
      (startPhases setup definition environment progress later).2.Told setup definition first) :
    (match state with
      | .over progress => startPhases setup definition environment progress later
      | .waiting progress step activity rest => (environment, .waiting
          { definition, progress, phase, step, activity, rest, later })).2.Told
        setup definition first := by
  cases told with
  | waiting told listed comes => exact .waiting rfl told listed comes
  | ended told => exact others told

/-- Wherever the phases get to, they are told by a chronicle. -/
theorem startPhases_told (custom : setup.custom = []) (phases : List Phase)
    (environment : Environment) {progress : Progress} {entries : List Entry}
    (told : progress.ToldBy setup definition first entries) :
    (startPhases setup definition environment progress phases).2.Told setup definition first := by
  induction phases generalizing environment progress entries with
  | nil => exact .ended told
  | cons phase later ih =>
    have begun := startSteps_told custom phase (progress.stepsOf definition phase) environment
      told (progress.stepsOf_listed definition phase)
    rw [startPhases]
    generalize startSteps setup phase environment progress
      (progress.stepsOf definition phase) = state at begun ⊢
    obtain ⟨environment, state⟩ := state
    have goesOn := told_of_phase begun fun told => ih environment told
    cases state <;> exact goesOn

/-- A run is told from its beginning. -/
theorem start_told (custom : setup.custom = []) (definition : Definition) (execution : String)
    (trigger : Value) (environment : Environment) :
    (start setup definition execution trigger environment).2.Told setup definition
      (.start definition.name execution trigger) :=
  startPhases_told custom Phase.all _ (Progress.start_toldBy ..)

/-- A run goes on to be told, whatever its environment has become. -/
theorem resume_told (custom : setup.custom = []) {run : Run} (environment : Environment)
    (told : (RunState.waiting run).Told setup definition first) :
    (run.resume setup environment).2.Told setup definition first := by
  cases told with
  | @waiting _ entries same told listed comes =>
    subst same
    have turned := comes.resume environment
    rw [resume]
    generalize run.activity.resume environment = resumed at turned ⊢
    obtain ⟨environment, activity⟩ := resumed
    have others : ∀ environment {progress : Progress} {entries : List Entry},
        progress.ToldBy setup run.definition first entries →
        (startPhases setup run.definition environment progress run.later).2.Told
          setup run.definition first :=
      fun environment _ _ told => startPhases_told custom run.later environment told
    cases activity with
    | ended outcome =>
      have recorded := told.record (listed List.mem_cons_self)
        (run.step.ends_of_comesTo custom turned)
      cases outcome with
      | ok output =>
        have goesOn := startSteps_told custom run.phase run.rest environment recorded
          fun _ member => listed (List.mem_cons_of_mem _ member)
        simp only [goOn]
        generalize startSteps setup run.phase environment _ run.rest = state at goesOn ⊢
        obtain ⟨environment, state⟩ := state
        exact told_of_phase goesOn (others environment)
      | error error =>
        have failed : (PhaseState.over (run.progress.record run.phase run.step (.error error))).Told
            setup run.definition first run.phase := .ended recorded
        exact told_of_phase failed (others environment)
    | calling | seated | awaiting | together => exact .waiting rfl told listed turned

end Run

/-! ## Reports -/

/-- The report of a run is told by entries, and its output is the record of what they wrote. -/
structure Report.ToldBy (report : Report) (setup : Setup) (definition : Definition)
    (first : Context) (entries : List Entry) : Prop where
  chronicle : Chronicle setup definition first entries report.steps
  output : report.output = .ofFields (entries.flatMap Entry.writes)
  /-- The last value that was written under a name is that of the output. -/
  latest : ∀ name, report.output.field? name =
    (entries.flatMap Entry.writes).reverse.lookup name

/-- The report of a run is told by the entries that tell of its progress. -/
theorem Progress.ToldBy.report {progress : Progress} {setup : Setup} {definition : Definition}
    {first : Context} {entries : List Entry} (fresh : first.outputNames = [])
    (told : progress.ToldBy setup definition first entries) :
    progress.report.ToldBy setup definition first entries := by
  obtain ⟨chronicle, context⟩ := told
  have output : progress.report.output = .ofFields (entries.flatMap Entry.writes) := by
    rw [Progress.report, context, Context.following, Context.outputs_setOutputs fresh]
  exact ⟨chronicle, output, fun name => by rw [output, Value.field?_ofFields]⟩

/-- What a task has come to that began as a run of a definition is told. -/
inductive Task.Told (setup : Setup) (definition : Definition) (first : Context) (engine : Nat) :
    Task → Prop where
  | running {run : Run} (told : (RunState.waiting run).Told setup definition first) :
      Told setup definition first engine (.running engine run)
  | ended {report : Report} {entries : List Entry}
      (told : report.ToldBy setup definition first entries) :
      Told setup definition first engine (.ended (.ok report))
  | taken : Told setup definition first engine .taken

/-- The task of a run that is told is told. -/
theorem RunState.Told.task {setup : Setup} {definition : Definition} {first : Context}
    (fresh : first.outputNames = []) {state : RunState}
    (told : state.Told setup definition first) (engine : Nat) :
    (Task.ofState engine state).Told setup definition first engine := by
  cases told with
  | waiting same told listed comes => exact .running (.waiting same told listed comes)
  | ended told => exact .ended (told.report fresh)

/-- A run on an engine without custom executors is told, whatever happens on its host. -/
theorem Host.told_afterAll {host : Host} {engine : Nat} {workflow : String}
    {definition : Definition} (registered : host.library.find? workflow = some definition)
    (custom : (host.engine engine).custom = []) (execution : String) (trigger : Value)
    (incidents : List Incident) :
    ∃ task, ((host.after (.begins engine workflow execution trigger)).afterAll
        incidents).runs[host.runs.length]? = some task ∧
      task.Told (host.engine engine).setup definition (.start definition.name execution trigger)
        engine := by
  have enters : host.Enters engine workflow execution trigger _ _ := .background
  refine run_afterAll enters.found ?_ ?_ .taken incidents
  · rw [begin, registered]
    exact (Run.start_told custom definition execution trigger _).task rfl engine
  · intro later plans task told
    have setup : (later.engine engine).setup = (host.engine engine).setup :=
      ((samePlans_after host (.begins engine workflow execution trigger)).trans plans).setup engine
    cases told with
    | @running run told =>
      have resumed := Run.resume_told custom (later.environment (later.engine engine)) told
      rw [← setup] at resumed ⊢
      exact resumed.task rfl engine
    | ended told => exact .ended told
    | taken => exact .taken

/-- Every report of a run on an engine without custom executors is told, whatever happened on the
host in between, and so is the report that an execution gives. -/
theorem Host.reports_told (host : Host) (engine : Nat) (workflow : String)
    (definition : Definition) (registered : host.library.find? workflow = some definition)
    (custom : (host.engine engine).custom = []) (execution : String) (trigger : Value) :
    (∀ incidents report, ((host.after (.begins engine workflow execution trigger)).afterAll
        incidents).runs[host.runs.length]? = some (.ended (.ok report)) →
      ∃ entries, report.ToldBy (host.engine engine).setup definition
        (.start definition.name execution trigger) entries) ∧
    (∀ report, (host.executeWithId engine workflow execution trigger).1 =
        .finished (.ok report) →
      ∃ entries, report.ToldBy (host.engine engine).setup definition
        (.start definition.name execution trigger) entries) := by
  have ended : ∀ incidents report, ((host.after (.begins engine workflow execution
      trigger)).afterAll incidents).runs[host.runs.length]? = some (.ended (.ok report)) →
      ∃ entries, report.ToldBy (host.engine engine).setup definition
        (.start definition.name execution trigger) entries := by
    intro incidents report done
    obtain ⟨task, found, told⟩ := told_afterAll registered custom execution trigger incidents
    obtain rfl := Option.some.inj (found.symm.trans done)
    cases told with
    | ended told => exact ⟨_, told⟩
  refine ⟨ended, fun report finished => ?_⟩
  obtain ⟨_, ⟨incidents, -, rfl⟩, done⟩ := executeWithId_leads finished
  exact ended incidents report done

/-! ## A group, and a step that reads and replaces what it wrote -/

/-- A step that calls an action with an input and stores the result. -/
def Step.calling (name action input output : String) : Step :=
  ⟨name, .action, some action, some (.text input), some output, none, none, none, none, []⟩

/-- A group of which one step fails, and a step that reads the value of the group. -/
def Definition.overwriting : Definition where
  name := "overwriting"
  description := none
  version := none
  trigger := .manual
  steps := [
    ⟨"both", .parallel, none, none, some "pair", none, none, none, none,
      [.calling "left" "echo" "x" "last", .calling "right" "gone" "y" "other"]⟩,
    .calling "read" "echo" "$pair" "last"]
  onComplete := []
  onError := []

/-- A host with a definition that refers to actions that are built in. -/
def Host.holding (definition : Definition) : Host :=
  .new { Library.builtIn with definitions := [(definition.name, definition)] } (.empty [])
    [.new .usual []]

/-- What the group gives: the step that failed counts as null. -/
def pairedValue : Value := .record [("left", .text "x"), ("right", .null)]

/-- The report that an answer about a run gives. -/
def RunAnswer.report? : RunAnswer → Option Report
  | .finished (.ok report) => some report
  | _ => none

/-- An answer with a report is that of a run that has finished. -/
theorem RunAnswer.eq_of_report? {answer : RunAnswer} {report : Report}
    (told : answer.report? = some report) : answer = .finished (.ok report) := by
  unfold report? at told
  split at told
  · rw [Option.some.inj told]
  · cases told

/-- A step reads the value of a group of which one member fails, and overwrites what another member
has written. -/
theorem Host.reports_told_overwriting :
    ((Host.holding .overwriting).executeWithId 0 "overwriting" "run" .null).1 = .finished (.ok
      ⟨"run", "overwriting",
        [⟨"both", .main, .completed, none, some pairedValue, none⟩,
          ⟨"read", .main, .completed, some pairedValue, some pairedValue, none⟩],
        .record [("last", pairedValue), ("pair", pairedValue)], none⟩) ∧
    ∀ report, ((Host.holding .overwriting).executeWithId 0 "overwriting" "run" .null).1 =
        .finished (.ok report) →
      ∃ entries, report.ToldBy ((Host.holding .overwriting).engine 0).setup .overwriting
        (.start Definition.overwriting.name "run" .null) entries := by
  have registered : (Host.holding .overwriting).library.find? "overwriting" =
      some Definition.overwriting := rfl
  have told := Host.reports_told _ 0 _ _ registered rfl "run" .null
  exact ⟨RunAnswer.eq_of_report? (by decide +kernel), told.2⟩

/-! ## A step that was skipped -/

/-- A workflow of one step that has an input and does not run. -/
def Definition.idle : Definition where
  name := "idle"
  description := none
  version := none
  trigger := .manual
  steps := [{ Step.calling "only" "echo" "x" "last" with condition := some "$nothing" }]
  onComplete := []
  onError := []

/-- A result can lack the input that its step declares: the step was skipped. -/
theorem Host.declared_input_despite_skip :
    ¬∀ (host : Host) (engine : Nat) (workflow execution : String) (trigger : Value)
      (definition : Definition) (incidents : List Incident) (report : Report),
      host.library.find? workflow = some definition → (host.engine engine).custom = [] →
      ((host.after (.begins engine workflow execution trigger)).afterAll
        incidents).runs[host.runs.length]? = some (.ended (.ok report)) →
      ∀ result ∈ report.steps, ∀ step ∈ definition.listed result.phase,
        step.name = result.step → step.loopOver = none →
          (result.input.isSome ↔ step.input.isSome) := by
  intro claim
  have run : (((Host.holding .idle).after (.begins 0 "idle" "run" .null)).afterAll []).runs[0]? =
      some (.ended (.ok
        ⟨"run", "idle", [⟨"only", .main, .skipped, none, none, none⟩], .record [], none⟩)) := by
    rfl
  have declared := claim (Host.holding .idle) 0 "idle" "run" .null .idle [] _ rfl rfl run _
    List.mem_cons_self _ List.mem_cons_self rfl rfl
  exact absurd declared (by decide)

end Workflow
