import Workflow.Proofs.Host.Shadows

/-!
# Runs do not disturb one another

Every run on a host comes to the same as it would alone: on a host of its own with the library of
the moment at which it began, on which nothing happens but what belongs to it. These are its own
turns, the time that passes and the decisions about its own requests. What belongs to a run leaves
the requests of all others and their tasks as they are.

Actions may not depend on how often they are called and are not registered anew while the run is
under way; definitions may be loaded, replaced and removed at any time. The identifiers of the runs
that are on an engine at one time are distinct.
-/
namespace Workflow

/-! ## What is seen of a task -/

/-- How far a run has got, or how it has ended. -/
inductive Standing where
  | underway (definition : Definition) (progress : Progress) (phase : Phase) (step : Step)
  | ended (result : Except EngineError Report)
  /-- There is no run, or it was given up. -/
  | absent

/-- How far the run of a task has got. -/
def Task.standing : Task → Standing
  | .running _ run => .underway run.definition run.progress run.phase run.step
  | .ended result => .ended result
  | .single .. | .taken => .absent

namespace Host

variable {host : Host}

/-- How far the run in a place has got. -/
def standing (host : Host) (place : Task.Place) : Standing :=
  ((host.task? place).map Task.standing).getD .absent

/-- A run has the same standing on the shared host as on its own one. -/
theorem Shadow.standing {engine : Nat} {place : Task.Place} {execution : String}
    {shared own : Host} (shadow : Shadow engine place execution shared own) :
    shared.standing place = own.standing (.background 0) := by
  rw [Host.standing, Host.standing]
  cases shadow with
  | running found foundOwn =>
    rw [found, foundOwn]
    rfl
  | ended found foundOwn => rw [found, foundOwn]

/-! ## What is left alone -/

namespace Incident

/-- The place of the task that has a turn or is given up. -/
def place? : Incident → Option Task.Place
  | .turn place | .leaves place => some place
  | _ => none

/-- An incident belongs to an execution on an engine: a run of it has a turn, is given up or begins,
or a decision about one of its requests is handed in. -/
def Of (host : Host) (engine : Nat) (execution : String) : Incident → Prop
  | .turn place | .leaves place =>
    ∃ run, host.task? place = some (.running engine run) ∧ run.execution = execution
  | .begins other _ identifier _ | .executes other _ identifier _ =>
    other = engine ∧ identifier = execution
  | .submits other key _ => other = engine ∧ key.execution = execution
  | .passes _ | .edits _ | .stores _ => False

end Incident

/-- A task changes only in its own turns, until it is given up. -/
theorem task?_after {place : Task.Place} {task : Task} (found : host.task? place = some task)
    {incident : Incident} (other : incident.place? ≠ some place) :
    (host.after incident).task? place = some task := by
  have entered : ∀ {engine workflow execution trigger incident entrance},
      host.Enters engine workflow execution trigger incident entrance →
      (host.after incident).task? place = some task := by
    intro engine workflow execution trigger incident entrance enters
    have differ : place ≠ entrance := by
      rintro rfl
      cases enters.missing.symm.trans found
    exact (enters.swaps.others place differ).trans found
  cases incident with
  | turn turned =>
    have differ : turned ≠ place := fun same => other (congrArg some same)
    simp only [after, goOn]
    split
    next acting _ =>
      rw [task?_put_of_ne differ, (sameTasks_resume host acting).task?, found]
    next => exact found
  | leaves left =>
    have differ : left ≠ place := fun same => other (congrArg some same)
    simp only [after, dismiss]
    rw [task?_clear_of_ne differ]
    cases host.task? left with
    | none => exact found
    | some acting => exact ((sameTasks_drop host acting).task? place).trans found
  | passes | stores => cases place <;> exact found
  | begins engine workflow execution trigger => exact entered .background
  | executes engine workflow execution trigger =>
    cases occupied : host.foreground with
    | none => exact entered (.foreground occupied)
    | some task =>
      rw [after, occupied]
      exact found
  | submits engine key decision =>
    obtain ⟨environment, -, same, -⟩ := host.handIn_eq engine key decision
    rw [after, same]
    cases place <;> exact found
  | edits edit =>
    obtain ⟨library, same | same⟩ := host.edit_eq edit <;> rw [after, same] <;>
      cases place <;> exact found

namespace Spares

variable {engine : Nat} {execution : String}

/-- As long as nothing happens the other executions are spared. -/
theorem refl (host : Host) (engine : Nat) (execution : String) :
    host.Spares engine execution host := ⟨rfl, fun _ _ => rfl⟩

/-- What leaves the engines alone spares the same executions. -/
theorem congr {later final : Host} (spares : host.Spares engine execution later)
    (same : final.engines = later.engines) : host.Spares engine execution final := by
  refine ⟨?_, fun other differ => ?_⟩
  · rw [engine_congr same, spares.beside]
  · rw [engine_congr same, spares.elsewhere other differ]

/-- To hand in a decision spares the executions other than that of its key. -/
theorem handIn (host : Host) (engine : Nat) (key : ReviewKey) (decision : Decision) :
    host.Spares engine key.execution (host.handIn engine key decision) := by
  obtain ⟨environment, desk, absorbed, -⟩ := host.handIn_eq engine key decision
  rw [absorbed]
  exact .absorb (Desk.requestsBeside_without (desk ▸ Desk.entries_submit _ key decision) rfl)

end Spares

/-- A run belongs to its own execution on its own engine. -/
theorem Attended.running (attended : host.Attended) {engine : Nat} {place : Task.Place} {run : Run}
    (found : host.task? place = some (.running engine run)) :
    (Task.running engine run).Within engine run.execution := by
  obtain ⟨_, _, within⟩ := attended.task found
  obtain ⟨rfl, rfl⟩ := within.of_running
  exact within

/-- What belongs to an execution leaves the requests of all others where they are. -/
theorem Attended.spares (attended : host.Attended) {engine : Nat} {execution : String}
    {incident : Incident} (belongs : incident.Of host engine execution) :
    host.Spares engine execution (host.after incident) := by
  have begun : ∀ workflow trigger, host.Spares engine execution
      (host.begin engine workflow execution trigger).1 := fun workflow trigger =>
    (lets_begin attended.custom engine workflow execution trigger).2.spares
  cases incident with
  | turn place =>
    obtain ⟨run, found, rfl⟩ := belongs
    rw [Host.after, goOn_of_task? found]
    exact (lets_resume attended.custom (attended.running found)).2.spares.congr
      (by cases place <;> rfl)
  | leaves place =>
    obtain ⟨run, found, rfl⟩ := belongs
    rw [Host.after, dismiss_of_task? found]
    exact (lets_drop (attended.running found)).spares.congr (by cases place <;> rfl)
  | begins other workflow identifier trigger =>
    obtain ⟨rfl, rfl⟩ := belongs
    exact (begun workflow trigger).congr rfl
  | executes other workflow identifier trigger =>
    obtain ⟨rfl, rfl⟩ := belongs
    simp only [Host.after]
    split
    · exact .refl host other identifier
    · exact (begun workflow trigger).congr rfl
  | submits other key decision =>
    obtain ⟨rfl, rfl⟩ := belongs
    exact .handIn host other key decision
  | passes | edits | stores => exact belongs.elim

/-! ## Histories -/

/-- A host with which a history begins: no custom executors, no requests and no tasks. -/
structure Vacant (host : Host) : Prop where
  custom : ∀ engine ∈ host.engines, engine.custom = []
  desks : ∀ engine ∈ host.engines, engine.desk = .empty
  foreground : host.foreground = none
  runs : host.runs = []

/-- A host of its own for a run: as it was at first, but with the time and the library of another
one. -/
def withLibraryOf (host reached : Host) : Host :=
  { host with now := reached.now, library := reached.library }

/-- The engines of a vacant host have no custom executors and no requests. -/
theorem Vacant.engine (vacant : host.Vacant) (index : Nat) :
    (host.engine index).custom = [] ∧ (host.engine index).desk = .empty := by
  unfold Host.engine
  cases found : host.engines[index]? with
  | none => exact ⟨rfl, rfl⟩
  | some engine =>
    have known := List.mem_of_getElem? found
    exact ⟨vacant.custom engine known, vacant.desks engine known⟩

/-- A vacant host is attended. -/
theorem Vacant.attended (vacant : host.Vacant) : host.Attended where
  custom index := (vacant.engine index).1
  tasks := by simp [tasks, vacant.foreground, vacant.runs]
  desks index inside := by
    rw [(vacant.engine index).2]
    simpa [seatsAt, tasks, vacant.foreground, vacant.runs] using Desk.Orderly.empty

/-- An incident leaves alone the requests and the tasks that do not belong to an execution. -/
structure Incident.Confined (incident : Incident) (host : Host) (engine : Nat)
    (execution : String) : Prop where
  spares : host.Spares engine execution (host.after incident)
  tasks : ∀ place task, host.task? place = some task → incident.place? ≠ some place →
    (host.after incident).task? place = some task

/-- What belongs to an execution is confined to it, and every run stands at every moment where it
would stand if it were alone. -/
theorem runs_isolated (vacant : host.Vacant) (before : List Incident) :
    (∀ engine execution (incident : Incident),
      incident.Of (host.afterAll before) engine execution →
      incident.Confined (host.afterAll before) engine execution) ∧
    ∀ engine < host.engines.length, (host.afterAll before).library.actions.Steady →
      ∀ workflow execution trigger incident place,
        (host.afterAll before).Enters engine workflow execution trigger incident place →
      ∀ after, (∀ later ∈ after, ¬later.Registers ∧ later ≠ .leaves place) →
        (host.afterAll before).Distinct (incident :: after) →
        (((host.afterAll before).after incident).afterAll after).standing place =
          (((host.withLibraryOf (host.afterAll before)).after
            (.begins engine workflow execution trigger)).afterAll
              (after.filterMap (Incident.alone? engine place execution))).standing
            (.background 0) := by
  have attended := vacant.attended.afterAll before
  have plans := samePlans_afterAll host before
  generalize host.afterAll before = reached at attended plans ⊢
  refine ⟨fun engine execution incident belongs =>
    ⟨attended.spares belongs, fun place task found other => task?_after found other⟩, ?_⟩
  intro engine inside steady workflow execution trigger incident place enters after goesOn distinct
  obtain ⟨fresh, later⟩ := distinct
  have free : reached.Free engine execution := by cases enters <;> exact fresh
  have inside : engine < reached.engines.length := by rwa [plans.length]
  have alone : reached.SamePlans (host.withLibraryOf reached) := plans.symm
  have begun := Shadow.enter attended alone inside steady free rfl rfl (vacant.engine engine).2
    vacant.runs enters
  have alike := begun.afterAll (attended.after incident)
    ((samePlans_after reached incident).symm.trans (alone.trans (samePlans_after _ _)))
    (by rwa [(samePlans_after reached incident).length])
    (fun later known => (goesOn later known).1) (fun later known => (goesOn later known).2) later
  exact alike.standing

/-! ## Two reviews -/

/-- A workflow in which something is told and a human is asked about it. -/
def approval : Definition where
  name := "approval"
  description := none
  version := none
  trigger := .manual
  steps := [
    ⟨"tells", .action, some "echo", some (.text "draft"), some "told", none, none, none, none, []⟩,
    ⟨"asks", .humanInLoop, none, some (.text "ready?"), some "answer", none, none, none, none, []⟩]
  onComplete := []
  onError := []

/-- A host on which the workflow is registered. -/
def office : Host :=
  .new { Library.builtIn with definitions := [("approval", approval)] } (.empty [])
    [.new .usual []]

/-- The host after a first run has begun. -/
def busyOffice : Host := office.afterAll [.begins 0 "approval" "first" .null]

/-- While a second run waits, the definition is removed, the first run is refused what it asks and
given up, and the second one is answered. -/
def meanwhile : List Incident := [
  .edits (.remove "approval"),
  .submits 0 ⟨"first", "asks"⟩ (.reject none),
  .turn (.background 0),
  .submits 0 ⟨"second", "asks"⟩ .approve,
  .leaves (.background 0),
  .passes 5,
  .turn (.background 1)]

/-- Of two runs with a review the second one is approved and completes, though the first one is
refused and given up meanwhile. -/
theorem runs_isolated_reviews :
    (Incident.submits 0 ⟨"first", "asks"⟩ (.reject none)).Confined busyOffice 0 "first" ∧
    ((busyOffice.after (.begins 0 "approval" "second" .null)).afterAll meanwhile).standing
        (.background 1) = .ended (.ok {
      execution := "second"
      workflow := "approval"
      steps := [
        ⟨"tells", .main, .completed, some (.text "draft"), some (.text "draft"), none⟩,
        ⟨"asks", .main, .completed, some (.text "ready?"),
          some (approvedValue (.text "ready?")), none⟩]
      output := .record [("answer", approvedValue (.text "ready?")), ("told", .text "draft")]
      error := none }) := by
  have vacant : office.Vacant := ⟨by simp [office, Host.new, Engine.new],
    by simp [office, Host.new, Engine.new], rfl, rfl⟩
  have called : ActionRegistry.builtIn.Same busyOffice.library.actions := ⟨rfl, rfl⟩
  have goesOn : ∀ later ∈ meanwhile, ¬later.Registers ∧ later ≠ .leaves (.background 1) := by
    simp [meanwhile, Incident.Registers, Edit.Registers]
  have others : busyOffice.tasks.all fun
      | .running _ run => run.execution != "second"
      | _ => true := by decide +kernel
  have free : busyOffice.Free 0 "second" := fun run known same => by
    simpa [same] using List.all_eq_true.mp others _ known
  obtain ⟨confined, isolated⟩ := runs_isolated vacant [.begins 0 "approval" "first" .null]
  have alone := isolated 0 (by decide) (ActionRegistry.steady_builtIn.same called) "approval"
    "second" .null _ _ .background meanwhile goesOn
    ⟨free, trivial, trivial, trivial, trivial, trivial, trivial, trivial, trivial⟩
  exact ⟨confined 0 "first" _ ⟨rfl, rfl⟩, alone.trans rfl⟩

end Host

end Workflow
