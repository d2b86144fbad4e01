import Workflow.Proofs.Host.Tasks

/-!
# Executions

An execution of a workflow is refused exactly if no workflow has the name. Otherwise it ends, if it
ends at all, with a report that follows the definition that was registered when it began, whatever
happened to the host between its turns.
-/
namespace Workflow

/-- What a task has come to that began as a run of a definition. -/
inductive Task.OnTrack (definition : Definition) : Task → Prop where
  | running {run : Run} (engine : Nat) (track : (RunState.waiting run).OnTrack definition) :
      OnTrack definition (.running engine run)
  | ended {report : Report} (follows : report.Follows definition) :
      OnTrack definition (.ended (.ok report))

/-- The task of a run that is on track is on track. -/
theorem RunState.OnTrack.task {definition : Definition} {state : RunState}
    (track : state.OnTrack definition) (engine : Nat) :
    (Task.ofState engine state).OnTrack definition := by
  rcases state with run | report
  · exact .running engine track
  · exact .ended track.follows

/-- A run keeps to the order of its definition in every turn. -/
theorem Task.Onward.onTrack {definition : Definition} {task later : Task}
    (onward : task.Onward later) (track : task.OnTrack definition) :
    later.OnTrack definition := by
  induction onward with
  | here => exact track
  | resume earlier host ih =>
    cases ih with
    | running engine track =>
      rename_i run
      have further := run.goOn_onTrack (host.engine engine).setup definition
        (run.activity.resume (host.environment (host.engine engine))).1
        (run.activity.resume (host.environment (host.engine engine))).2 track
      exact further.task engine
    | ended follows => exact .ended follows

/-- A run of a registered workflow begins on the track of its definition. -/
theorem Host.begin_onTrack {host : Host} {workflow : String} {definition : Definition}
    (registered : host.library.find? workflow = some definition) (engine : Nat)
    (execution : String) (trigger : Value) :
    (host.begin engine workflow execution trigger).2.OnTrack definition := by
  rw [begin, registered]
  exact (Run.start_onTrack (host.engine engine).setup definition execution trigger _).task engine

/-- What the result of an execution says, by the definition that is registered under the name: a
refusal says that there is none, a report follows it. -/
def Library.Answers (library : Library) (workflow : String) : Except EngineError Report → Prop
  | .error error => library.find? workflow = none ∧ error = .workflowNotFound workflow
  | .ok report => ∃ definition, library.find? workflow = some definition ∧
    report.Follows definition

/-- The result of a run answers for the definition with which it began. -/
theorem Host.begin_answers {host : Host} {engine : Nat} {workflow execution : String}
    {trigger : Value} {result : Except EngineError Report}
    (onward : (host.begin engine workflow execution trigger).2.Onward (.ended result)) :
    host.library.Answers workflow result := by
  cases registered : host.library.find? workflow with
  | none =>
    rw [begin, registered] at onward
    obtain rfl := Task.ended.inj onward.of_ended
    exact ⟨registered, rfl⟩
  | some definition =>
    cases onward.onTrack (begin_onTrack registered engine execution trigger) with
    | ended follows => exact ⟨definition, registered, follows⟩

/-- An execution ends with an error exactly if the workflow is not registered, and otherwise with a
report that follows the definition, after any turns on any hosts. -/
theorem Host.execution_follows_definition (host : Host) (engine : Nat)
    (workflow execution : String) (trigger : Value) :
    (∀ result, (host.begin engine workflow execution trigger).2.Onward (.ended result) →
      host.library.Answers workflow result) ∧
    (∀ result, (host.executeWithId engine workflow execution trigger).1 = .finished result →
      host.library.Answers workflow result) ∧
    ((∃ error, (host.executeWithId engine workflow execution trigger).1 =
      .finished (.error error)) ↔ host.library.find? workflow = none) := by
  refine ⟨?_, ?_, ?_, ?_⟩
  · intro result onward
    exact begin_answers onward
  · intro result finished
    exact begin_answers (executeWithId_onward finished)
  · rintro ⟨error, finished⟩
    exact (begin_answers (executeWithId_onward finished)).1
  · intro unknown
    exact ⟨_, executeWithId_unknown unknown engine execution trigger⟩

/-! ## A failure of the last step -/

/-- A workflow of one step, which calls an action. -/
def Definition.single (step action : String) : Definition where
  name := "single"
  description := none
  version := none
  trigger := .manual
  steps := [⟨step, .action, some action, none, none, none, none, none, none, []⟩]
  onComplete := []
  onError := []

/-- A host on which the only step of a workflow calls an action that is not registered. -/
def Host.unprepared : Host :=
  .new { Library.empty with definitions := [("single", .single "only" "gone")] }
    (.empty []) [.new .usual []]

/-- The results of a phase can be those of all its steps although one failed: the last one. -/
theorem Host.whole_list_despite_failure :
    ¬∀ (host : Host) (engine : Nat) (workflow execution : String) (trigger : Value)
      (definition : Definition) (report : Report),
      host.library.find? workflow = some definition →
      (host.begin engine workflow execution trigger).2.Onward (.ended (.ok report)) →
      ((report.stepsIn .main).map StepResult.step = definition.steps.map Step.name ↔
        ∀ result ∈ report.stepsIn .main, result.isFailure = false) := by
  intro claim
  have run : (unprepared.begin 0 "single" "run" .null).2 =
      .ended (.ok ⟨"run", "single", [⟨"only", .main, .failed, none, none,
        some (StepError.unknownAction "gone").message⟩], .record [],
        some ⟨"only", (StepError.unknownAction "gone").message⟩⟩) := by
    rfl
  have whole := claim unprepared 0 "single" "run" .null (.single "only" "gone") _ rfl
    (by rw [← run]; exact .here)
  exact absurd (whole.mp rfl _ List.mem_cons_self) (by decide)

end Workflow
