import Workflow.Proofs.Host.Incidents
import Workflow.Proofs.Library

/-!
# Hosts whose definitions are loaded

A host is sound if every definition in its library is ready for the actions registered there, no
task can show a defect, and no warning tells of one. Turns of tasks count calls but take no action
out of the library, so what was ready stays so. As long as definitions enter only by being loaded, a
host that begins without any stays sound, whatever happens on it, and so no step ever fails for a
defect.
-/
namespace Workflow

/-! ## Tasks -/

/-- Actions are found that were found before, and no warning tells of a defect. -/
structure Environment.Sound (environment : Environment) (actions : ActionRegistry) : Prop where
  actions : actions.Within environment.actions
  warnings : ∀ warning ∈ environment.warnings, warning.Sound

/-- The steps of a definition that is ready keep their environment sound. -/
theorem Definition.Ready.sound_keeps {definition : Definition} {actions : ActionRegistry}
    (ready : definition.Ready actions) :
    (Rules.sound definition.Uses).Keeps fun _ environment => environment.Sound actions where
  order sound _ := sound
  quiet {_ environment later} sound quiet := by
    refine ⟨fun name registered => ?_, quiet.warnings ▸ sound.warnings⟩
    rw [ActionRegistry.contains, quiet.actions.find?]
    exact sound.actions name registered
  warn warning sound tolerated :=
    ⟨sound.actions, List.forall_mem_cons.mpr ⟨tolerated, sound.warnings⟩⟩
  found sound uses := by
    obtain ⟨step, known, named⟩ := uses
    exact sound.actions _ (ready.registered step known _ named)
  sitDown _ sound _ := ⟨sound.actions, sound.warnings⟩
  discard _ sound _ := ⟨sound.actions, sound.warnings⟩
  leave sound _ := ⟨sound.actions, sound.warnings⟩

/-- The rules tolerate a warning about a run that failed. -/
theorem Rules.sound_tolerates (uses : String → Prop) (execution workflow step error : String) :
    (Rules.sound uses).tolerates (.runFailed execution workflow step error) :=
  fun _ _ _ same => by cases same

/-- A task cannot show a defect, and has shown none. -/
inductive Task.Sound (actions : ActionRegistry) : Task → Prop where
  | running {engine : Nat} {run : Run} {execution : String} (ready : run.definition.Ready actions)
      (obeys : (RunState.waiting run).Obeys (Rules.sound run.definition.Uses) run.definition
        execution) : Sound actions (.running engine run)
  | refused (error : EngineError) : Sound actions (.ended (.error error))
  | ended {report : Report} {uses : String → Prop}
      (explained : ∀ result ∈ report.steps, (Rules.sound uses).Explain result) :
      Sound actions (.ended (.ok report))
  | taken : Sound actions .taken

/-- A task that is sound stays so while actions are registered. -/
theorem Task.Sound.later {task : Task} {actions later : ActionRegistry}
    (sound : task.Sound actions) (within : actions.Within later) : task.Sound later := by
  cases sound with
  | running ready obeys => exact .running (ready.later within) obeys
  | refused => exact .refused _
  | ended explained => exact .ended explained
  | taken => exact .taken

/-- A run that obeys the rules against defects is a sound task where its definition is ready. -/
theorem RunState.Obeys.task {definition : Definition} {execution : String} {state : RunState}
    (obeys : state.Obeys (Rules.sound definition.Uses) definition execution)
    {actions : ActionRegistry} (ready : definition.Ready actions) (engine : Nat) :
    (Task.ofState engine state).Sound actions := by
  cases obeys with
  | waiting same done obeys remain =>
    subst same
    exact .running ready (.waiting rfl done obeys remain)
  | ended own explained => exact .ended explained

/-- That a decision was not delivered tells of no defect. -/
theorem Submission.sound_of_warning? {submission : Submission} {key : ReviewKey}
    {warning : Warning} (given : submission.warning? key = some warning) : warning.Sound := by
  rintro group step error rfl
  cases submission <;> cases given

/-- The result does not have the words of a defect. -/
def StepResult.Sound (result : StepResult) : Prop :=
  ∀ defect : StepError, defect.isDefect = true → result.error ≠ some defect.message

/-- A result that the rules against defects explain is sound. -/
theorem Rules.Explain.sound {uses : String → Prop} {result : StepResult}
    (explained : (Rules.sound uses).Explain result) : result.Sound := by
  intro defect isDefect words
  obtain ⟨error, allowed, same⟩ := explained _ words
  exact StepError.message_ne_of_defect isDefect (allowed error rfl) same

/-! ## Hosts -/

namespace Host

/-- Every definition is ready, no task can show a defect, and no warning tells of one. -/
structure Sound (host : Host) : Prop where
  library : host.library.Sound
  tasks : ∀ task ∈ host.tasks, task.Sound host.library.actions
  warnings : ∀ warning ∈ host.warnings, warning.Sound

variable {host : Host}

/-- The environments of a sound host are sound. -/
theorem Sound.environment (sound : host.Sound) (engine : Engine) :
    (host.environment engine).Sound host.library.actions :=
  ⟨fun _ known => known, sound.warnings⟩

/-- A host stays sound when its library soundly becomes another one. -/
theorem Sound.edit (sound : host.Sound) {library : Library}
    (becomes : host.library.SoundlyBecomes library) : { host with library }.Sound :=
  ⟨becomes.sound, fun task known => (sound.tasks task known).later becomes.actions,
    sound.warnings⟩

/-- A host that takes over a sound environment stays sound. -/
theorem Sound.absorb (sound : host.Sound) (index : Nat) {environment : Environment}
    (after : environment.Sound host.library.actions) : (host.absorb index environment).Sound where
  library := fun entry known => (sound.library entry known).later after.actions
  tasks := fun task known => (sound.tasks task known).later after.actions
  warnings := after.warnings

/-- A turn of a task shows no defect. -/
theorem Sound.resume (sound : host.Sound) (custom : ∀ index, (host.engine index).custom = [])
    {task : Task} (own : task.Sound host.library.actions) :
    (task.resume host).1.Sound ∧
      (task.resume host).2.Sound (task.resume host).1.library.actions := by
  cases own with
  | @running engine run execution ready obeys =>
    have conduct : run.definition.Obeys _ (host.engine engine).setup execution :=
      Definition.obeys_sound ready.accepted (custom engine) execution
    have known : (host.environment (host.engine engine)).Sound host.library.actions :=
      sound.environment _
    obtain ⟨turned, after⟩ := Run.resume_obeys ready.sound_keeps (Rules.sound_tolerates _) conduct _
      obeys [] known
    exact ⟨sound.absorb engine after, turned.task (ready.later after.actions) engine⟩
  | refused error => exact ⟨sound, .refused error⟩
  | ended explained => exact ⟨sound, .ended explained⟩
  | taken => exact ⟨sound, .taken⟩

/-- A run that begins shows no defect. -/
theorem Sound.begin (sound : host.Sound) (custom : ∀ index, (host.engine index).custom = [])
    (engine : Nat) (workflow execution : String) (trigger : Value) :
    (host.begin engine workflow execution trigger).1.Sound ∧
      (host.begin engine workflow execution trigger).2.Sound
        (host.begin engine workflow execution trigger).1.library.actions := by
  unfold Host.begin
  split
  · exact ⟨sound, .refused _⟩
  next definition found =>
    have ready : definition.Ready host.library.actions :=
      sound.library _ (Table.mem_of_get? found)
    have conduct : definition.Obeys _ (host.engine engine).setup execution :=
      Definition.obeys_sound ready.accepted (custom engine) execution
    have known : (host.environment (host.engine engine)).Sound host.library.actions :=
      sound.environment _
    obtain ⟨begun, after⟩ := Run.start_obeys ready.sound_keeps (Rules.sound_tolerates _) conduct
      trigger _ [] known
    exact ⟨sound.absorb engine after, begun.task (ready.later after.actions) engine⟩

/-- A task that is dropped shows no defect. -/
theorem Sound.drop (sound : host.Sound) {task : Task} (own : task.Sound host.library.actions) :
    (task.drop host).Sound := by
  cases own with
  | @running engine run execution ready obeys =>
    cases obeys with
    | waiting _ _ obeys _ =>
      exact sound.absorb engine
        (obeys.drop ready.sound_keeps (host.environment (host.engine engine)) []
          (sound.environment _))
  | refused | ended | taken => exact sound

/-- A task that shows no defect may be put in a place. -/
theorem Sound.put (sound : host.Sound) {task : Task} (own : task.Sound host.library.actions)
    (place : Task.Place) : (host.put task place).Sound := by
  have tasks : ∀ other ∈ (host.put task place).tasks, other.Sound host.library.actions := by
    intro other known
    rcases mem_tasks_put known with rfl | earlier
    · exact own
    · exact sound.tasks other earlier
  cases place <;> exact ⟨sound.library, tasks, sound.warnings⟩

/-- Every task on a sound host is sound. -/
theorem Sound.task (sound : host.Sound) {place : Task.Place} {task : Task}
    (found : host.task? place = some task) : task.Sound host.library.actions :=
  sound.tasks task (mem_tasks_of_task? found)

/-- A decision that is handed in changes only the desk; at most it is not delivered. -/
theorem Sound.handIn (sound : host.Sound) (engine : Nat) (key : ReviewKey) (decision : Decision) :
    (host.handIn engine key decision).Sound := by
  refine sound.absorb engine ?_
  split
  next warning given =>
    exact ⟨fun _ known => known,
      List.forall_mem_cons.mpr ⟨Submission.sound_of_warning? given, sound.warnings⟩⟩
  next => exact ⟨fun _ known => known, sound.warnings⟩

end Host

/-! ## Histories -/

/-- Definitions enter only by being loaded or reloaded. -/
def Host.Edit.Loads : Host.Edit → Prop
  | .insert _ | .upsert _ => False
  | _ => True

/-- An incident adds no definition but by loading it. -/
def Host.Incident.Loads : Host.Incident → Prop
  | .edits edit => edit.Loads
  | _ => True

/-- A host that only goes on is given no definition. -/
theorem Host.Incident.loads_of_goesOn {incident : Host.Incident} (goesOn : incident.GoesOn) :
    incident.Loads := by
  cases incident with
  | edits => exact goesOn.elim
  | turn | passes | begins | executes | submits | leaves | stores => trivial

namespace Host

variable {host : Host}

/-- A host stays sound when definitions are loaded or actions registered. -/
theorem Sound.afterEdit (sound : host.Sound) {edit : Edit} (loads : edit.Loads) :
    (host.edit edit).Sound := by
  cases edit with
  | register name action =>
    simp only [Host.edit, register, change]
    split
    next done => exact sound.edit (sound.library.register done)
    next => exact sound
  | loadText text =>
    simp only [Host.edit, Host.loadText, changeNamed]
    split
    next done => exact sound.edit (sound.library.loadText done)
    next => exact sound
  | loadFile path =>
    simp only [Host.edit, Host.loadFile, changeNamed]
    split
    next done => exact sound.edit (sound.library.loadFile done)
    next => exact sound
  | loadDirectory engine =>
    simp only [Host.edit, Host.loadDirectory]
    split
    next => exact sound
    next =>
      refine ⟨sound.library, sound.tasks, List.forall_mem_cons.mpr ⟨?_, sound.warnings⟩⟩
      intro group step error same
      cases same
    next done => exact sound.edit (sound.library.loadDirectory done)
    next done => exact sound.edit (sound.library.loadDirectory done)
  | reload text =>
    simp only [Host.edit, Host.reload, change]
    split
    next done =>
      obtain ⟨definition, read, done⟩ := ok_of_bind done
      exact sound.edit (sound.library.reload (Definition.ofText_accepted read) done)
    next => exact sound
  | remove name => exact sound.edit (sound.library.remove name)
  | insert text => exact loads.elim
  | upsert text => exact loads.elim

/-- An incident that adds no definition but by loading it leaves a sound host sound. -/
theorem Sound.after (sound : host.Sound) (custom : ∀ index, (host.engine index).custom = [])
    {incident : Incident} (loads : incident.Loads) : (host.after incident).Sound := by
  cases incident with
  | turn place =>
    simp only [Host.after, goOn]
    split
    next task found =>
      obtain ⟨turned, own⟩ := sound.resume custom (sound.task found)
      exact turned.put own place
    next => exact sound
  | passes duration => exact ⟨sound.library, sound.tasks, sound.warnings⟩
  | begins engine workflow execution trigger =>
    obtain ⟨begun, own⟩ := sound.begin custom engine workflow execution trigger
    refine ⟨begun.library, fun task known => ?_, begun.warnings⟩
    rw [Host.after, Host.tasks, ← List.append_assoc] at known
    rcases List.mem_append.mp known with earlier | new
    · exact begun.tasks task earlier
    · exact List.mem_singleton.mp new ▸ own
  | executes engine workflow execution trigger =>
    simp only [Host.after]
    split
    · exact sound
    · obtain ⟨begun, own⟩ := sound.begin custom engine workflow execution trigger
      exact begun.put own .foreground
  | submits engine key decision => exact sound.handIn engine key decision
  | leaves place =>
    simp only [Host.after, dismiss]
    have dropped : (((host.task? place).map (Task.drop host)).getD host).Sound := by
      cases found : host.task? place with
      | none => exact sound
      | some task => exact sound.drop (sound.task found)
    cases place with
    | background number => exact dropped.put .taken (.background number)
    | foreground =>
      exact ⟨dropped.library, fun task known => dropped.tasks task (List.mem_append_right _ known),
        dropped.warnings⟩
  | edits edit => exact sound.afterEdit loads
  | stores disk => exact ⟨sound.library, sound.tasks, sound.warnings⟩

/-- A host stays sound under incidents that add no definition but by loading it. -/
theorem Sound.afterAll (sound : host.Sound) (custom : ∀ index, (host.engine index).custom = [])
    {incidents : List Incident} (loads : ∀ incident ∈ incidents, incident.Loads) :
    (host.afterAll incidents).Sound := by
  induction incidents generalizing host with
  | nil => exact sound
  | cons incident rest ih =>
    obtain ⟨first, others⟩ := List.forall_mem_cons.mp loads
    refine ih (sound.after custom first) (fun index => ?_) others
    rw [((samePlans_after host incident).engine index).2, custom]

/-! ## What is seen of a host -/

/-- A host with which a history begins: no definitions, no custom executors, no runs. -/
structure Blank (host : Host) : Prop where
  definitions : host.library.definitions = []
  custom : ∀ engine ∈ host.engines, engine.custom = []
  foreground : host.foreground = none
  runs : host.runs = []
  warnings : host.warnings = []

/-- A blank host is sound. -/
theorem Blank.sound (blank : host.Blank) : host.Sound where
  library := by simp [Library.Sound, blank.definitions]
  tasks := by simp [tasks, blank.foreground, blank.runs]
  warnings := by simp [blank.warnings]

/-- No engine of a blank host has custom executors. -/
theorem Blank.custom_engine (blank : host.Blank) (index : Nat) :
    (host.engine index).custom = [] := by
  unfold Host.engine
  cases found : host.engines[index]? with
  | none => rfl
  | some engine => exact blank.custom engine (List.mem_of_getElem? found)

/-- Nothing that is seen of a host tells of a step that failed for a defect. -/
structure Faultless (host : Host) : Prop where
  /-- No step inside a group of steps that have ended failed for one. -/
  warnings : ∀ group step error, Warning.subStepFailed group step error ∈ host.warnings →
    error.isDefect = false
  /-- Nor did a step, at whatever depth, that has ended inside a step that is still running. -/
  inside : ∀ engine run, Task.running engine run ∈ host.tasks → ∀ error,
    run.activity.Contains (.error error) → error.isDefect = false
  /-- Nor did a step of a run that goes on. -/
  recorded : ∀ engine run, Task.running engine run ∈ host.tasks →
    ∀ result ∈ run.progress.results, result.Sound
  /-- Nor did a step of a run that has ended. -/
  reported : ∀ report, Task.ended (.ok report) ∈ host.tasks →
    ∀ result ∈ report.steps, result.Sound

/-- On a sound host nobody sees a defect. -/
theorem Sound.faultless (sound : host.Sound) : host.Faultless where
  warnings group step error known := sound.warnings _ known group step error rfl
  inside engine run known error contains := by
    cases sound.tasks _ known with
    | running ready obeys =>
      cases obeys with
      | waiting _ _ obeys _ => exact obeys.allows contains error rfl
  recorded engine run known result member := by
    cases sound.tasks _ known with
    | running ready obeys =>
      cases obeys with
      | waiting _ done _ _ => exact (done.explained result member).sound
  reported report known result member := by
    cases sound.tasks _ known with
    | ended explained => exact (explained result member).sound

/-- As long as definitions enter only by being loaded, no step ever fails for a defect, whatever
actions are registered and whatever the runs on the engines of the host do. The report of a run that
is executed at any time tells of none either. -/
theorem never_defective (blank : host.Blank) (incidents : List Incident)
    (loads : ∀ incident ∈ incidents, incident.Loads) :
    (host.afterAll incidents).Faultless ∧
    ∀ engine workflow execution trigger report,
      ((host.afterAll incidents).executeWithId engine workflow execution trigger).1 =
        .finished (.ok report) → ∀ result ∈ report.steps, result.Sound := by
  have sound := blank.sound.afterAll blank.custom_engine loads
  refine ⟨sound.faultless, fun engine workflow execution trigger report finished => ?_⟩
  obtain ⟨_, ⟨others, goOn, rfl⟩, done⟩ := executeWithId_leads finished
  have further : ((host.afterAll incidents).afterAll
      (.begins engine workflow execution trigger :: others)).Sound := by
    refine sound.afterAll (fun index => ?_) (List.forall_mem_cons.mpr ⟨trivial, ?_⟩)
    · rw [((samePlans_afterAll host incidents).engine index).2, blank.custom_engine]
    · exact fun incident known => Incident.loads_of_goesOn (goOn incident known)
  exact further.faultless.reported report
    (List.mem_append_right _ (List.mem_of_getElem? done))

/-! ## A history with failures -/

/-- A workflow with a group of which one step fails, and a step that follows its failure. -/
def fetchingText : String := "[workflow]
name = \"fetching\"

[[steps]]
name = \"both\"
type = \"parallel\"

[[steps.steps]]
name = \"greets\"
action = \"echo\"

[[steps.steps]]
name = \"fetches\"
action = \"fetch\"

[[steps]]
name = \"again\"
action = \"fetch\"
"

/-- An action that fails at once. -/
def failing (message : String) : Action := .plain fun _ => .after 0 (.error ⟨message⟩)

/-- A definition is refused until its action is registered, the action is replaced, and two engines
run the definition. -/
def fetching : List Incident := [
  .edits (.loadText fetchingText),
  .edits (.register "fetch " (failing "offline")),
  .edits (.loadText fetchingText),
  .begins 0 "fetching" "first" .null,
  .edits (.register "fetch" (failing "busy")),
  .begins 1 "fetching" "second" .null]

/-- Two runs whose steps fail show failures of actions, but no defect. -/
theorem never_defective_fetching :
    ((Host.new .builtIn (.empty []) [.new .usual [], .new .usual []]).afterAll
      fetching).warnings = [
        .runFailed "second" "fetching" "again" "アクション 'fetch' が失敗しました: busy",
        .subStepFailed "both" "fetches" (.actionFailed "fetch" ⟨"busy"⟩),
        .runFailed "first" "fetching" "again" "アクション 'fetch' が失敗しました: offline",
        .subStepFailed "both" "fetches" (.actionFailed "fetch" ⟨"offline"⟩)] ∧
    ((Host.new .builtIn (.empty []) [.new .usual [], .new .usual []]).afterAll
      fetching).Faultless := by
  have blank : (Host.new .builtIn (.empty []) [.new .usual [], .new .usual []]).Blank :=
    ⟨rfl, by simp [Host.new, Engine.new], rfl, rfl, rfl⟩
  have loads : ∀ incident ∈ fetching, incident.Loads := by
    simp [fetching, Incident.Loads, Edit.Loads]
  exact ⟨by decide +kernel, (never_defective blank fetching loads).1⟩

end Host

end Workflow
