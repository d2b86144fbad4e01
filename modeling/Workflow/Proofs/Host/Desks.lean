import Workflow.Proofs.Host.Keeping
import Workflow.Proofs.Run.Acts

/-!
# The desks of a host

The runs of an engine hold seats at its desk. On a host without custom executors each run asks only
in its own execution and the desks stay orderly, whatever happens. A turn, the beginning and the end
of a run are told by one relation, `Host.Lets`: an execution has acted in the environment of an
engine.
-/
namespace Workflow

/-! ## Tasks of an execution -/

/-- A task runs on an engine in an execution and asks only in it, or is over. -/
inductive Task.Within (engine : Nat) (execution : String) : Task → Prop where
  | running {run : Run} (obeys : (RunState.waiting run).Obeys (Rules.within execution)
      run.definition execution) : Within engine execution (.running engine run)
  | ended (result : Except EngineError Report) : Within engine execution (.ended result)
  | taken : Within engine execution .taken

/-- A task is over, or a run that asks only in its own execution. -/
def Task.Attended (task : Task) : Prop := ∃ engine execution, task.Within engine execution

/-- A run may ask in its own execution. -/
def Circle.within : Circle := fun _ _ execution key => key.execution = execution

/-- A task that asks only in its own execution keeps to this circle. -/
theorem Task.Attended.obeys {task : Task} (attended : task.Attended) :
    task.Obeys Circle.within := by
  obtain ⟨engine, execution, within⟩ := attended
  cases within with
  | running obeys => exact .running obeys
  | ended result => exact .ended result
  | taken => exact .taken

/-- A task that keeps to the circle of its own execution asks only in it. -/
theorem Task.Obeys.attended {task : Task} (obeys : task.Obeys Circle.within) :
    task.Attended := by
  cases obeys with
  | @running engine run execution obeys => exact ⟨engine, execution, .running obeys⟩
  | ended result => exact ⟨0, "", .ended result⟩
  | taken => exact ⟨0, "", .taken⟩

/-- A run that obeys the rules of its execution asks only in it. -/
theorem RunState.Obeys.within {definition : Definition} {execution : String} {state : RunState}
    (obeys : state.Obeys (Rules.within execution) definition execution) (engine : Nat) :
    (Task.ofState engine state).Within engine execution := by
  cases obeys with
  | waiting same done inside remain =>
    subst same
    exact .running (.waiting rfl done inside remain)
  | ended => exact .ended _

namespace Task.Within

variable {engine : Nat} {execution : String} {task : Task}

/-- A run that is within an execution on an engine runs there under this identifier. -/
theorem of_running {other : Nat} {run : Run}
    (within : (Task.running other run).Within engine execution) :
    other = engine ∧ run.execution = execution := by
  cases within with
  | running obeys =>
    cases obeys with
    | waiting _ done _ _ => exact ⟨rfl, done.own⟩

/-- A task holds seats only on its engine. -/
theorem seatsAt_of_ne (within : task.Within engine execution) {other : Nat}
    (differ : other ≠ engine) : task.seatsAt other = [] := by
  cases within with
  | running => exact seatsAt_running_of_ne differ _
  | ended | taken => rfl

/-- A task holds seats only in its execution. -/
theorem execution_seats (within : task.Within engine execution) (index : Nat) :
    ∀ seat ∈ task.seatsAt index, seat.key.execution = execution := by
  cases within with
  | running obeys =>
    cases obeys with
    | waiting _ _ inside _ =>
      rw [seatsAt]
      split
      · exact inside.asks_seats
      · simp
  | ended | taken => simp [seatsAt]

end Task.Within

/-! ## Executions on a host -/

namespace Host

variable {host : Host}

/-- On a host an execution has exchanged seats at the desk of an engine for others. -/
structure Lets (host : Host) (engine : Nat) (execution : String) (seats seats' : List Seat)
    (later : Host) : Prop where
  acts : ∃ environment, later = host.absorb engine environment ∧
    Environment.Acts execution seats (host.environment (host.engine engine)) seats' environment

/-- The requests of other executions at the desk of an engine, and all other desks, are as they
were. -/
structure Spares (host : Host) (engine : Nat) (execution : String) (later : Host) : Prop where
  beside : (later.engine engine).desk.requestsBeside execution =
    (host.engine engine).desk.requestsBeside execution
  elsewhere : ∀ other ≠ engine, (later.engine other).desk = (host.engine other).desk

/-- What leaves the requests of others at a desk alone leaves them alone on the host. -/
theorem Spares.absorb {engine : Nat} {execution : String} {environment : Environment}
    (beside : environment.desk.requestsBeside execution =
      (host.engine engine).desk.requestsBeside execution) :
    host.Spares engine execution (host.absorb engine environment) where
  beside := by
    rcases Nat.lt_or_ge engine host.engines.length with inside | outside
    · rw [engine_absorb_self host inside]
      exact beside
    · rw [engine_absorb_of_le host outside]
  elsewhere other differ := congrArg Engine.desk (host.engine_absorb_of_ne differ environment)

namespace Lets

variable {engine : Nat} {execution : String} {seats seats' : List Seat} {later : Host}

/-- As long as nothing happens no seats are exchanged. -/
theorem refl (host : Host) (engine : Nat) (execution : String) (seats : List Seat) :
    host.Lets engine execution seats seats host :=
  ⟨_, (host.absorb_environment engine).symm, .refl execution seats _⟩

/-- To exchange seats is no concern of the tasks. -/
theorem tasks (lets : host.Lets engine execution seats seats' later) : host.SameTasks later := by
  obtain ⟨environment, rfl, -⟩ := lets.acts
  exact ⟨rfl, rfl⟩

/-- Nothing else happens to the other engines of the host. -/
theorem engines (lets : host.Lets engine execution seats seats' later) :
    ∀ other ≠ engine, later.engine other = host.engine other := by
  obtain ⟨environment, rfl, -⟩ := lets.acts
  exact fun other differ => host.engine_absorb_of_ne differ environment

/-- The requests of others stay where they are. -/
theorem spares (lets : host.Lets engine execution seats seats' later) :
    host.Spares engine execution later := by
  obtain ⟨environment, rfl, acts⟩ := lets.acts
  exact .absorb acts.bystanders

end Lets

/-- A task that has a turn exchanges its seats. -/
theorem lets_resume (custom : ∀ index, (host.engine index).custom = []) {task : Task} {engine : Nat}
    {execution : String} (within : task.Within engine execution) :
    (task.resume host).2.Within engine execution ∧
      host.Lets engine execution (task.seatsAt engine) ((task.resume host).2.seatsAt engine)
        (task.resume host).1 := by
  cases within with
  | @running run obeys =>
    have plain : (host.engine engine).setup.custom = [] := custom engine
    obtain ⟨after, acts⟩ := Run.resume_acts plain obeys (host.environment (host.engine engine))
    refine ⟨after.within engine, ⟨⟨_, rfl, ?_⟩⟩⟩
    rw [Task.seatsAt_running, Task.resume, Host.within, Task.seatsAt_ofState, if_pos rfl]
    exact acts
  | ended result => exact ⟨.ended result, .refl host engine execution []⟩
  | taken => exact ⟨.taken, .refl host engine execution []⟩

/-- A run that begins takes its seats. -/
theorem lets_begin (custom : ∀ index, (host.engine index).custom = []) (engine : Nat)
    (workflow execution : String) (trigger : Value) :
    (host.begin engine workflow execution trigger).2.Within engine execution ∧
      host.Lets engine execution []
        ((host.begin engine workflow execution trigger).2.seatsAt engine)
        (host.begin engine workflow execution trigger).1 := by
  unfold begin
  split
  next => exact ⟨.ended _, .refl host engine execution []⟩
  next definition _ =>
    have plain : (host.engine engine).setup.custom = [] := custom engine
    obtain ⟨after, acts⟩ := Run.start_acts plain definition execution trigger
      (host.environment (host.engine engine))
    refine ⟨after.within engine, ⟨⟨_, rfl, ?_⟩⟩⟩
    rw [Host.within, Task.seatsAt_ofState, if_pos rfl]
    exact acts

/-- A task that is dropped leaves its seats. -/
theorem lets_drop {task : Task} {engine : Nat} {execution : String}
    (within : task.Within engine execution) :
    host.Lets engine execution (task.seatsAt engine) [] (task.drop host) := by
  cases within with
  | running obeys =>
    refine ⟨⟨_, rfl, ?_⟩⟩
    rw [Task.seatsAt_running]
    exact Run.drop_acts obeys _
  | ended | taken => exact .refl host engine execution []

/-! ## Hosts that are attended -/

/-- There are no custom executors, the runs ask only in their own executions, and the desks are
orderly. -/
structure Attended (host : Host) : Prop where
  custom : ∀ index, (host.engine index).custom = []
  tasks : ∀ task ∈ host.tasks, task.Attended
  desks : ∀ index < host.engines.length,
    (host.engine index).desk.Orderly (host.seatsAt index) []

namespace Attended

/-- Each task on an attended host asks only in its own execution. -/
theorem task (attended : host.Attended) {place : Task.Place} {task : Task}
    (found : host.task? place = some task) : task.Attended :=
  attended.tasks task (mem_tasks_of_task? found)

/-- What an attended host keeps is kept by every incident. -/
theorem keeping (attended : host.Attended) :
    host.Keeping Circle.within fun _ seats desk => desk.Orderly seats [] where
  conducts engine definition execution := definition.obeys_within
    (by simp [Engine.setup, attended.custom engine]) execution
  tasks task known := (attended.tasks task known).obeys
  desks := attended.desks

/-- An incident leaves an attended host attended. -/
theorem after (attended : host.Attended) (incident : Incident) :
    (host.after incident).Attended := by
  have kept := attended.keeping.after (fun _ => Desk.keeps_orderly) incident
  refine ⟨fun index => ?_, fun task known => (kept.tasks task known).attended, kept.desks⟩
  rw [((samePlans_after host incident).engine index).2, attended.custom]

/-- A host stays attended whatever happens. -/
theorem afterAll (attended : host.Attended) (incidents : List Incident) :
    (host.afterAll incidents).Attended := by
  induction incidents generalizing host with
  | nil => exact attended
  | cons incident rest ih => exact ih (attended.after incident)

end Attended

end Host

end Workflow
