import Workflow.Proofs.Host.Desks
import Workflow.Proofs.Library

/-!
# One run on two hosts

A run on a host that it shares with others is compared with the same run on a host of its own.
`Host.Shadow` says that it has got to the same on both: it has made the same progress and waits for
the same, or has ended with the same result. What belongs to the run happens on both hosts alike,
and what belongs to others leaves the relation as it is.
-/
namespace Workflow

namespace Host

/-- No other run on an engine than the one in a place belongs to an execution. -/
def Apart (host : Host) (engine : Nat) (place : Task.Place) (execution : String) : Prop :=
  ∀ other ≠ place, ∀ run, host.task? other = some (.running engine run) →
    run.execution ≠ execution

/-- No run on an engine belongs to an execution. -/
def Free (host : Host) (engine : Nat) (execution : String) : Prop :=
  ∀ run, .running engine run ∈ host.tasks → run.execution ≠ execution

/-- The seats at the desk of an engine apart from those of the task in a place. -/
def seatsBeside (host : Host) (place : Task.Place) (engine : Nat) : List Seat :=
  (host.put .taken place).seatsAt engine

/-- A run in a place of a shared host has got to the same as the first run on a host of its own. -/
inductive Shadow (engine : Nat) (place : Task.Place) (execution : String) (shared own : Host) :
    Prop where
  | running {run : Run} {activity' : Activity} {held : List (Seat × Seat)}
      (found : shared.task? place = some (.running engine run))
      (foundOwn : own.task? (.background 0) =
        some (.running engine { run with activity := activity' }))
      (ours : run.execution = execution) (apart : shared.Apart engine place execution)
      (alike : run.activity.Alike execution [] held activity')
      (mirror : Environment.Mirror execution held (shared.seatsBeside place engine)
        (shared.environment (shared.engine engine)) (own.environment (own.engine engine)))
  | ended {result : Except EngineError Report}
      (found : shared.task? place = some (.ended result))
      (foundOwn : own.task? (.background 0) = some (.ended result))

variable {engine : Nat} {place : Task.Place} {execution : String} {shared own host : Host}

/-! ## Edits that keep the actions -/

/-- An edit registers an action. -/
def Edit.Registers : Edit → Prop
  | .register _ _ => True
  | _ => False

/-- The actions stay unless one is registered. -/
theorem actions_edit (host : Host) {edit : Edit} (registers : ¬edit.Registers) :
    (host.edit edit).library.actions = host.library.actions := by
  cases edit with
  | register => exact absurd trivial registers
  | loadText text =>
    simp only [Host.edit, loadText, changeNamed]
    split
    next done => exact Library.actions_loadText done
    next => rfl
  | loadFile path =>
    simp only [Host.edit, loadFile, changeNamed]
    split
    next done => exact Library.actions_loadFile done
    next => rfl
  | loadDirectory engine =>
    simp only [Host.edit, loadDirectory]
    split
    next => rfl
    next => rfl
    next done => exact Library.actions_loadDirectory done
    next done => exact Library.actions_loadDirectory done
  | reload text =>
    simp only [Host.edit, reload, change]
    split
    next done =>
      obtain ⟨definition, -, done⟩ := ok_of_bind done
      exact Library.actions_reload done
    next => rfl
  | insert text =>
    simp only [Host.edit, insert, changeNamed]
    split
    next done =>
      obtain ⟨definition, -, done⟩ := ok_of_bind done
      obtain ⟨library, inserted, done⟩ := ok_of_bind done
      cases done
      exact Library.actions_insert inserted
    next => rfl
  | upsert text =>
    simp only [Host.edit, upsert]
    split <;> rfl
  | remove name => rfl

/-! ## Environments that are taken over -/

/-- The environment of an engine is the one that was taken over. -/
theorem quiet_absorb (host : Host) {engine : Nat} (inside : engine < host.engines.length)
    {environment : Environment} (now : environment.now = host.now) :
    environment.Quiet ((host.absorb engine environment).environment
      ((host.absorb engine environment).engine engine)) where
  now := now.symm
  actions := .refl _
  desk := by rw [engine_absorb_self host inside]; rfl
  warnings := rfl

/-- What another execution does on a host leaves the environment of a run in agreement. -/
theorem Lets.mirror {other : Nat} {execution' : String} {held : List (Seat × Seat)}
    {rest : List Seat} {environment : Environment} {later : Host} {task task' : Task}
    (lets : host.Lets other execution' (task.seatsAt other) (task'.seatsAt other) later)
    (inside : engine < host.engines.length)
    (before : task.Within other execution') (after : task'.Within other execution')
    (apart : other = engine → execution' ≠ execution)
    (mirror : Environment.Mirror execution held (task.seatsAt engine ++ rest)
      (host.environment (host.engine engine)) environment) :
    Environment.Mirror execution held (task'.seatsAt engine ++ rest)
      (later.environment (later.engine engine)) environment := by
  by_cases same : other = engine
  · subst same
    obtain ⟨_, rfl, acts⟩ := lets.acts
    exact (acts.mirror (apart rfl) mirror).quiet (host.quiet_absorb inside acts.still.1)
      (.refl environment)
  · -- On another engine the task has no seat at this desk, neither before nor after.
    have elsewhere : engine ≠ other := Ne.symm same
    rw [before.seatsAt_of_ne elsewhere] at mirror
    rw [after.seatsAt_of_ne elsewhere, lets.engines engine elsewhere]
    obtain ⟨_, rfl, acts⟩ := lets.acts
    exact mirror.sameMoment ⟨rfl, acts.still.2⟩ (.refl environment) mirror.desk

/-- Where no run on an engine belongs to an execution, no seat at its desk does. -/
theorem Attended.strangers (attended : host.Attended) (free : host.Free engine execution) :
    ∀ seat ∈ host.seatsAt engine, seat.key.execution ≠ execution := by
  intro seat held
  obtain ⟨task, known, held⟩ := List.mem_flatMap.mp held
  obtain ⟨other, execution', within⟩ := attended.tasks task known
  have theirs := within.execution_seats engine seat held
  cases within with
  | @running run obeys =>
    by_cases here : engine = other
    · subst here
      obtain ⟨-, same⟩ : engine = engine ∧ run.execution = execution' :=
        Task.Within.of_running (.running obeys)
      rw [theirs, ← same]
      exact free run known
    · rw [Task.seatsAt_running_of_ne here run] at held
      cases held
  | ended | taken => cases held

/-- Where no run belongs to an execution, the environment of the engine agrees with that of a host
of its own on which there are no requests. -/
theorem Attended.mirror (attended : shared.Attended) (inside : engine < shared.engines.length)
    (steady : shared.library.actions.Steady) (free : shared.Free engine execution)
    (library : own.library = shared.library) (now : own.now = shared.now)
    (desk : (own.engine engine).desk = .empty) :
    Environment.Mirror execution [] (shared.seatsAt engine)
      (shared.environment (shared.engine engine)) (own.environment (own.engine engine)) where
  now := now
  actions := by
    rw [environment, environment, library]
    exact .refl _
  steady := steady
  desk := {
    common := attended.desks engine inside
    single := by
      rw [environment, desk]
      exact .empty
    keys := by simp
    strangers := attended.strangers free
    letters := by simp
    bears := by simp
    replaced := by simp }

/-! ## What happens to the hosts -/

namespace Shadow

/-- Where the tasks stay and the environments of the engine stay in agreement, so do the runs. -/
theorem same (shadow : Shadow engine place execution shared own) {shared' own' : Host}
    (tasks : shared.SameTasks shared') (ownTasks : own.SameTasks own')
    (agree : ∀ {held : List (Seat × Seat)} {foreign : List Seat},
      Environment.Mirror execution held foreign (shared.environment (shared.engine engine))
          (own.environment (own.engine engine)) →
        Environment.Mirror execution held foreign (shared'.environment (shared'.engine engine))
          (own'.environment (own'.engine engine))) :
    Shadow engine place execution shared' own' := by
  cases shadow with
  | running found foundOwn ours apart alike mirror =>
    refine .running ((tasks.task? _).trans found) ((ownTasks.task? _).trans foundOwn) ours ?_
      alike ?_
    · intro other differ run there
      exact apart other differ run ((tasks.task? other).symm.trans there)
    · rw [seatsBeside, (tasks.put .taken place).seatsAt]
      exact agree mirror
  | ended found foundOwn =>
    exact .ended ((tasks.task? _).trans found) ((ownTasks.task? _).trans foundOwn)

/-- What becomes of another task does not touch the run. -/
theorem swaps (shadow : Shadow engine place execution shared own)
    (inside : engine < shared.engines.length) {other : Nat} {execution' : String}
    {task task' : Task} {changed : Task.Place} {later final : Host} (differ : place ≠ changed)
    (before : task.Within other execution') (after : task'.Within other execution')
    (apart : ∀ run, shared.task? place = some (.running engine run) →
      run.execution = execution → other = engine → execution' ≠ execution)
    (lets : shared.Lets other execution' (task.seatsAt other) (task'.seatsAt other) later)
    (swaps : shared.Swaps later changed task task' final) :
    Shadow engine place execution final own := by
  cases shadow with
  | running found foundOwn ours others alike mirror =>
    have foreigner := apart _ found ours
    obtain ⟨rest, seats, seats'⟩ := swaps.seats place differ engine
    have apart : final.Apart engine place execution := by
      intro position elsewhere run there
      by_cases here : position = changed
      · subst here
        obtain rfl := swaps.here _ there
        obtain ⟨rfl, rfl⟩ := after.of_running
        exact foreigner rfl
      · exact others position elsewhere run ((swaps.others position here).symm.trans there)
    refine .running ((swaps.others place differ).trans found) foundOwn ours apart alike ?_
    -- The seats of the other task come first, so that what it does exchanges them for new ones.
    have reordered := { mirror with desk := mirror.desk.perm (.refl _) seats }
    have moved := lets.mirror inside before after foreigner reordered
    rw [swaps.environment]
    exact { moved with desk := moved.desk.perm (.refl _) seats'.symm }
  | ended found foundOwn => exact .ended ((swaps.others place differ).trans found) foundOwn

/-- The run has got to the same after it has acted on both hosts. -/
theorem acted {result result' : Environment × RunState} {foreign : List Seat}
    (inside : engine < shared.engines.length) (insideOwn : engine < own.engines.length)
    (now : result.1.now = shared.now) (nowOwn : result'.1.now = own.now)
    (parallel : RunState.Parallel execution foreign result result')
    {final finalOwn : Host}
    (found : final.task? place = some (.ofState engine result.2))
    (foundOwn : finalOwn.task? (.background 0) = some (.ofState engine result'.2))
    (apart : final.Apart engine place execution)
    (seats : foreign.Perm (final.seatsBeside place engine))
    (environment : final.environment (final.engine engine) =
      (shared.absorb engine result.1).environment ((shared.absorb engine result.1).engine engine))
    (environmentOwn : finalOwn.environment (finalOwn.engine engine) =
      (own.absorb engine result'.1).environment ((own.absorb engine result'.1).engine engine)) :
    Shadow engine place execution final finalOwn := by
  obtain ⟨shared', state⟩ := result
  obtain ⟨own', state'⟩ := result'
  obtain ⟨held, alike, mirror⟩ := parallel
  cases alike with
  | waiting ours alike =>
    refine .running found foundOwn ours apart alike ?_
    rw [environment, environmentOwn]
    have agreed := mirror.quiet (shared.quiet_absorb inside now) (own.quiet_absorb insideOwn nowOwn)
    exact { agreed with desk := agreed.desk.perm (.refl held) seats }
  | ended report => exact .ended found foundOwn

/-- The run has its turn on both hosts. -/
theorem turn (shadow : Shadow engine place execution shared own) (attended : shared.Attended)
    (plans : shared.SamePlans own) (inside : engine < shared.engines.length) :
    Shadow engine place execution (shared.goOn place) (own.goOn (.background 0)) := by
  cases shadow with
  | @running run activity' held found foundOwn ours apart alike mirror =>
    have plain : (shared.engine engine).setup.custom = [] := attended.custom engine
    have parallel := Run.resume_parallel plain ours alike mirror
    have now : (run.resume (shared.engine engine).setup
        (shared.environment (shared.engine engine))).1.now = shared.now := by
      obtain ⟨_, _, within⟩ := attended.task found
      cases within with
      | running obeys => exact (Run.resume_acts plain obeys _).2.still.1
    rw [goOn_of_task? found, goOn_of_task? foundOwn]
    simp only [Task.resume, within, plans.setup engine]
    generalize run.resume (shared.engine engine).setup
      (shared.environment (shared.engine engine)) = result at parallel now ⊢
    generalize Run.resume (shared.engine engine).setup { run with activity := activity' }
      (own.environment (own.engine engine)) = result' at parallel ⊢
    have nowOwn : result'.1.now = own.now := by
      obtain ⟨_, -, after⟩ := parallel
      exact after.now.trans (now.trans mirror.now.symm)
    have same : shared.SameTasks (shared.absorb engine result.1) := ⟨rfl, rfl⟩
    refine acted inside (plans.length ▸ inside) now nowOwn parallel
      (task?_put_self (found ▸ rfl)) (task?_put_self (foundOwn ▸ rfl)) ?_ ?_ ?_ rfl
    · intro other differ run there
      rw [task?_put_of_ne differ.symm] at there
      exact apart other differ run (same.task? other ▸ there)
    · rw [seatsBeside, seatsBeside, put_put, (same.put .taken place).seatsAt]
    · cases place <;> rfl
  | ended found foundOwn =>
    rw [goOn_of_ended found, goOn_of_ended foundOwn]
    exact .ended found foundOwn

/-- A run enters alike on a shared host and on one of its own with the same library. -/
theorem enter (attended : shared.Attended) (plans : shared.SamePlans own)
    (inside : engine < shared.engines.length) (steady : shared.library.actions.Steady)
    (free : shared.Free engine execution) (library : own.library = shared.library)
    (now : own.now = shared.now) (desk : (own.engine engine).desk = .empty) (idle : own.runs = [])
    {workflow : String} {trigger : Value} {incident : Incident}
    (enters : shared.Enters engine workflow execution trigger incident place) :
    Shadow engine place execution (shared.after incident)
      (own.after (.begins engine workflow execution trigger)) := by
  have alone : own.Enters engine workflow execution trigger
      (.begins engine workflow execution trigger) (.background 0) := by
    have enters : own.Enters engine workflow execution trigger _ _ := .background
    rwa [idle] at enters
  have found := enters.found
  have foundOwn := alone.found
  cases known : shared.library.find? workflow with
  | none =>
    rw [begin, known] at found
    rw [begin, library, known] at foundOwn
    exact .ended found foundOwn
  | some definition =>
    have plain : (shared.engine engine).setup.custom = [] := attended.custom engine
    have mirror := attended.mirror inside steady free library now desk
    have parallel := Run.start_parallel plain definition trigger mirror
    have now : (Run.start (shared.engine engine).setup definition execution trigger
        (shared.environment (shared.engine engine))).1.now = shared.now :=
      (Run.start_acts plain definition execution trigger _).2.still.1
    have environment := enters.swaps.environment engine
    have environmentOwn := alone.swaps.environment engine
    rw [begin_of_find? known] at found environment
    rw [begin_of_find? (library ▸ known), plans.setup engine] at foundOwn environmentOwn
    generalize Run.start (shared.engine engine).setup definition execution trigger
      (shared.environment (shared.engine engine)) = result at parallel now found environment
    generalize Run.start (shared.engine engine).setup definition execution trigger
      (own.environment (own.engine engine)) = result' at parallel foundOwn environmentOwn
    have nowOwn : result'.1.now = own.now := by
      obtain ⟨_, -, after⟩ := parallel
      exact after.now.trans (now.trans mirror.now.symm)
    refine acted inside (plans.length ▸ inside) now nowOwn parallel found foundOwn ?_ ?_ environment
      environmentOwn
    · intro other differ run there
      exact free run (mem_tasks_of_task? (enters.swaps.others other differ ▸ there))
    · rw [seatsBeside, enters.seatsAt_put engine]

/-- The task in another place is not a run of the execution on the engine. -/
theorem outsider (shadow : Shadow engine place execution shared own) (attended : shared.Attended)
    {other : Task.Place} (differ : place ≠ other) {task : Task}
    (found : shared.task? other = some task) :
    ∃ engine' execution', task.Within engine' execution' ∧
      ∀ run, shared.task? place = some (.running engine run) → run.execution = execution →
        engine' = engine → execution' ≠ execution := by
  obtain ⟨engine', execution', within⟩ := attended.task found
  cases within with
  | @running run obeys =>
    refine ⟨engine', execution', .running obeys, fun ours there _ same => ?_⟩
    subst same
    obtain ⟨-, own⟩ : engine' = engine' ∧ run.execution = execution' :=
      Task.Within.of_running (.running obeys)
    cases shadow with
    | running _ _ _ apart => exact own ▸ apart other differ.symm run found
    | ended finished => cases finished.symm.trans there
  -- What is over belongs to any execution on any engine, so it may count as one of another engine.
  | ended result => exact ⟨engine + 1, execution, .ended result, fun _ _ _ same => by omega⟩
  | taken => exact ⟨engine + 1, execution, .taken, fun _ _ _ same => by omega⟩

/-- The turn of another task. -/
theorem turn_other (shadow : Shadow engine place execution shared own) (attended : shared.Attended)
    (inside : engine < shared.engines.length) {other : Task.Place} (differ : place ≠ other) :
    Shadow engine place execution (shared.goOn other) own := by
  cases found : shared.task? other with
  | none =>
    rw [goOn, found]
    exact shadow
  | some task =>
    obtain ⟨_, _, before, apart⟩ := shadow.outsider attended differ found
    obtain ⟨after, lets⟩ := lets_resume attended.custom before
    rw [goOn_of_task? found]
    exact shadow.swaps inside differ before after apart lets (swaps_put found lets.tasks _)

/-- Another task is given up. -/
theorem leave_other (shadow : Shadow engine place execution shared own) (attended : shared.Attended)
    (inside : engine < shared.engines.length) {other : Task.Place} (differ : place ≠ other) :
    Shadow engine place execution (shared.dismiss other) own := by
  cases found : shared.task? other with
  | none =>
    rw [dismiss, found]
    exact (clear_of_missing found).symm ▸ shadow
  | some task =>
    obtain ⟨_, _, before, apart⟩ := shadow.outsider attended differ found
    have lets : shared.Lets _ _ _ [] _ := lets_drop before
    rw [dismiss_of_task? found]
    exact shadow.swaps inside differ before .taken apart lets (swaps_clear found lets.tasks)

/-- Another run enters. -/
theorem enter_other (shadow : Shadow engine place execution shared own) (attended : shared.Attended)
    (inside : engine < shared.engines.length) {other : Nat} {execution' : String}
    (free : shared.Free other execution') {workflow : String} {trigger : Value}
    {incident : Incident} {entered : Task.Place}
    (enters : shared.Enters other workflow execution' trigger incident entered) :
    Shadow engine place execution (shared.after incident) own := by
  obtain ⟨after, lets⟩ := lets_begin attended.custom other workflow execution' trigger
  have differ : place ≠ entered := by
    rintro rfl
    cases shadow with
    | running found | ended found => cases enters.missing.symm.trans found
  refine shadow.swaps inside differ .taken after (fun run found ours here => ?_) lets enters.swaps
  subst here
  exact fun same => free run (mem_tasks_of_task? found) (ours.trans same.symm)

/-- A decision about a request of the execution is handed in on both hosts. -/
theorem handIn (shadow : Shadow engine place execution shared own) (plans : shared.SamePlans own)
    (inside : engine < shared.engines.length) (key : ReviewKey) (decision : Decision) :
    Shadow engine place execution (shared.handIn engine key decision)
      (own.handIn engine key decision) := by
  obtain ⟨environment, desk, absorbed, now, actions⟩ := shared.handIn_eq engine key decision
  obtain ⟨environment', desk', absorbed', now', actions'⟩ := own.handIn_eq engine key decision
  rw [absorbed, absorbed']
  refine shadow.same ⟨rfl, rfl⟩ ⟨rfl, rfl⟩ fun {held foreign} mirror => ?_
  have handed : Environment.Mirror execution held foreign environment environment' := by
    refine mirror.sameMoment ⟨now, actions ▸ .refl _⟩ ⟨now', actions' ▸ .refl _⟩ ?_
    rw [desk, desk']
    exact mirror.desk.submit key decision
  exact handed.quiet (shared.quiet_absorb inside now)
    (own.quiet_absorb (plans.length ▸ inside) now')

/-- A decision about a request of another execution, or on another engine, is handed in. -/
theorem handIn_other (shadow : Shadow engine place execution shared own)
    (inside : engine < shared.engines.length) {other : Nat} {key : ReviewKey}
    (theirs : ¬(other = engine ∧ key.execution = execution)) (decision : Decision) :
    Shadow engine place execution (shared.handIn other key decision) own := by
  obtain ⟨environment, desk, absorbed, now, actions⟩ := shared.handIn_eq other key decision
  rw [absorbed]
  refine shadow.same ⟨rfl, rfl⟩ ⟨rfl, rfl⟩ fun {held foreign} mirror => ?_
  by_cases here : other = engine
  · subst here
    have stranger : key.execution ≠ execution := fun same => theirs ⟨rfl, same⟩
    have handed : Environment.Mirror execution held foreign environment
        (own.environment (own.engine other)) := by
      refine mirror.sameMoment ⟨now, actions ▸ .refl _⟩ (.refl _) ?_
      rw [desk]
      exact mirror.desk.submit_stranger stranger decision
    exact handed.quiet (shared.quiet_absorb inside now) (.refl _)
  · have elsewhere : engine ≠ other := Ne.symm here
    refine mirror.sameMoment ⟨rfl, actions ▸ .refl _⟩ (.refl _) ?_
    rw [engine_absorb_of_ne shared elsewhere]
    exact mirror.desk

/-- The library is edited, but no action is registered. -/
theorem edit (shadow : Shadow engine place execution shared own) {edit : Edit}
    (registers : ¬edit.Registers) : Shadow engine place execution (shared.edit edit) own := by
  have actions : shared.library.actions.Same (shared.edit edit).library.actions :=
    actions_edit shared registers ▸ .refl _
  obtain ⟨library, same | same⟩ := shared.edit_eq edit <;> rw [same] at actions ⊢ <;>
    exact shadow.same ⟨rfl, rfl⟩ ⟨rfl, rfl⟩ fun mirror =>
      mirror.sameMoment ⟨rfl, actions⟩ (.refl _) mirror.desk

/-- Time passes on both hosts. -/
theorem pass (shadow : Shadow engine place execution shared own) (duration : Nat) :
    Shadow engine place execution (shared.after (.passes duration))
      (own.after (.passes duration)) :=
  shadow.same ⟨rfl, rfl⟩ ⟨rfl, rfl⟩ fun mirror =>
    ⟨congrArg (· + duration) mirror.now, mirror.actions, mirror.steady, mirror.desk⟩

end Shadow

/-! ## Histories -/

/-- An incident registers an action. -/
def Incident.Registers : Incident → Prop
  | .edits edit => edit.Registers
  | _ => False

/-- A run that begins is given an identifier that no run on its engine bears. -/
def Incident.Fresh (host : Host) : Incident → Prop
  | .begins engine _ execution _ | .executes engine _ execution _ => host.Free engine execution
  | _ => True

/-- In a history the runs that are on an engine at one time bear distinct identifiers. -/
def Distinct (host : Host) : List Incident → Prop
  | [] => True
  | incident :: rest => incident.Fresh host ∧ (host.after incident).Distinct rest

/-- What an incident is for the run in a place when it is the first one on a host of its own;
nothing if it belongs to others. -/
def Incident.alone? (engine : Nat) (place : Task.Place) (execution : String) :
    Incident → Option Incident
  | .turn other => if other = place then some (.turn (.background 0)) else none
  | .passes duration => some (.passes duration)
  | .submits other key decision =>
    if other = engine ∧ key.execution = execution then some (.submits other key decision) else none
  | .begins .. | .executes .. | .leaves _ | .edits _ | .stores _ => none

/-- After an incident that does not give up the run it has got to the same on both hosts. -/
theorem Shadow.after (shadow : Shadow engine place execution shared own)
    (attended : shared.Attended) (plans : shared.SamePlans own)
    (inside : engine < shared.engines.length) {incident : Incident}
    (registers : ¬incident.Registers) (stays : incident ≠ .leaves place)
    (fresh : incident.Fresh shared) :
    Shadow engine place execution (shared.after incident)
      (own.afterAll (incident.alone? engine place execution).toList) := by
  cases incident with
  | turn other =>
    by_cases here : other = place
    · subst here
      rw [Incident.alone?, if_pos rfl]
      exact shadow.turn attended plans inside
    · rw [Incident.alone?, if_neg here]
      exact shadow.turn_other attended inside (Ne.symm here)
  | passes duration => exact shadow.pass duration
  | begins other workflow execution' trigger =>
    exact shadow.enter_other attended inside fresh .background
  | executes other workflow execution' trigger =>
    cases occupied : shared.foreground with
    | none => exact shadow.enter_other attended inside fresh (.foreground occupied)
    | some task =>
      rw [Host.after, occupied]
      exact shadow
  | submits other key decision =>
    by_cases ours : other = engine ∧ key.execution = execution
    · obtain ⟨rfl, rfl⟩ := ours
      rw [Incident.alone?, if_pos ⟨rfl, rfl⟩]
      exact shadow.handIn plans inside key decision
    · rw [Incident.alone?, if_neg ours]
      exact shadow.handIn_other inside ours decision
  | leaves other =>
    have differ : place ≠ other := fun same => stays (congrArg Incident.leaves same.symm)
    exact shadow.leave_other attended inside differ
  | edits edit => exact shadow.edit registers
  | stores disk => exact shadow.same ⟨rfl, rfl⟩ ⟨rfl, rfl⟩ fun mirror => mirror

/-- At every moment until the run is given up it has got to the same on both hosts. -/
theorem Shadow.afterAll (shadow : Shadow engine place execution shared own)
    (attended : shared.Attended) (plans : shared.SamePlans own)
    (inside : engine < shared.engines.length) {incidents : List Incident}
    (registers : ∀ incident ∈ incidents, ¬incident.Registers)
    (stays : ∀ incident ∈ incidents, incident ≠ .leaves place)
    (distinct : shared.Distinct incidents) :
    Shadow engine place execution (shared.afterAll incidents)
      (own.afterAll (incidents.filterMap (Incident.alone? engine place execution))) := by
  induction incidents generalizing shared own with
  | nil => exact shadow
  | cons incident rest ih =>
    obtain ⟨first, others⟩ := List.forall_mem_cons.mp registers
    obtain ⟨firstStays, othersStay⟩ := List.forall_mem_cons.mp stays
    obtain ⟨fresh, later⟩ := distinct
    have plansAfter : (shared.after incident).SamePlans
        (own.afterAll (incident.alone? engine place execution).toList) :=
      (samePlans_after shared incident).symm.trans (plans.trans (samePlans_afterAll own _))
    have insideAfter : engine < (shared.after incident).engines.length := by
      rwa [(samePlans_after shared incident).length]
    have next := shadow.after attended plans inside first firstStays fresh
    have split : (incident :: rest).filterMap (Incident.alone? engine place execution) =
        (incident.alone? engine place execution).toList ++
          rest.filterMap (Incident.alone? engine place execution) := by
      cases kept : incident.alone? engine place execution <;> simp [kept]
    rw [split, afterAll_append]
    exact ih next (attended.after incident) plansAfter insideAfter others othersStay later

end Host

end Workflow
