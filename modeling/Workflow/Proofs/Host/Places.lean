import Workflow.Proofs.Host.Incidents
import Workflow.Proofs.Run.Rules

/-!
# Places of tasks and seats at desks

A task is put in the place of another one; the tasks in other places stay. The seats that the tasks
hold at the desk of an engine are counted without their order.
-/
namespace Workflow

/-! ## Tasks and their seats -/

/-- The seats that a task holds at the desk of an engine. -/
def Task.seatsAt (index : Nat) : Task → List Seat
  | .single engine _ activity => if engine = index then activity.seats else []
  | .running engine run => if engine = index then run.activity.seats else []
  | .ended _ | .taken => []

/-- A run holds its seats at the desk of its engine. -/
theorem Task.seatsAt_running (engine : Nat) (run : Run) :
    (Task.running engine run).seatsAt engine = run.activity.seats := if_pos rfl

/-- A run holds no seats at other desks. -/
theorem Task.seatsAt_running_of_ne {engine other : Nat} (differ : other ≠ engine) (run : Run) :
    (Task.running engine run).seatsAt other = [] := if_neg differ.symm

/-- The task of a run holds the seats of its state at the desk of its engine, and no others. -/
theorem Task.seatsAt_ofState (engine index : Nat) (state : RunState) :
    (Task.ofState engine state).seatsAt index = if engine = index then state.seats else [] := by
  rcases state with run | report
  · rfl
  · simp [ofState, seatsAt, RunState.seats]

namespace Host

/-- The seats that are held at the desk of an engine. -/
def seatsAt (host : Host) (index : Nat) : List Seat := host.tasks.flatMap (Task.seatsAt index)

variable {host : Host} {place other : Task.Place} {task : Task}

/-- To put a task where it is changes nothing. -/
theorem put_of_task? (found : host.task? place = some task) : host.put task place = host := by
  cases place with
  | foreground => exact congrArg (fun foreground => { host with foreground }) found.symm
  | background number =>
    obtain ⟨inside, rfl⟩ := List.getElem?_eq_some_iff.mp found
    rw [put, List.set_getElem_self]

/-- The task in a place has its turn. -/
theorem goOn_of_task? (found : host.task? place = some task) :
    host.goOn place = (task.resume host).1.put (task.resume host).2 place := by
  rw [goOn, found]

/-- A run that is over does nothing in its turn. -/
theorem goOn_of_ended {result : Except EngineError Report}
    (found : host.task? place = some (.ended result)) : host.goOn place = host :=
  (goOn_of_task? found).trans (put_of_task? found)

/-- The task in a place is dropped. -/
theorem dismiss_of_task? (found : host.task? place = some task) :
    host.dismiss place = (task.drop host).clear place := by
  rw [dismiss, found, Option.map_some, Option.getD_some]

/-- A place without a task is clear. -/
theorem clear_of_missing (missing : host.task? place = none) : host.clear place = host := by
  cases place with
  | foreground => exact congrArg (fun foreground => { host with foreground }) missing.symm
  | background number =>
    rw [clear, List.set_eq_of_length_le (List.getElem?_eq_none_iff.mp missing)]

/-- Of two tasks that are put into one place the second one stays. -/
theorem put_put (first second : Task) :
    (host.put first place).put second place = host.put second place := by
  cases place with
  | foreground => rfl
  | background number => simp only [put, List.set_set]

/-- Tasks are put into two places in either order. -/
theorem put_comm (differ : place ≠ other) (first second : Task) :
    (host.put first place).put second other = (host.put second other).put first place := by
  cases place with
  | foreground =>
    cases other with
    | foreground => exact absurd rfl differ
    | background number => rfl
  | background number =>
    cases other with
    | foreground => rfl
    | background number' =>
      have apart : number ≠ number' := fun same => differ (congrArg _ same)
      simp only [put, List.set_comm first second apart]

/-- A task that is put into a place that is taken is found there. -/
theorem task?_put_self (found : (host.task? place).isSome) :
    (host.put task place).task? place = some task := by
  cases place with
  | foreground => rfl
  | background number =>
    obtain ⟨earlier, found⟩ := Option.isSome_iff_exists.mp found
    exact List.getElem?_set_self (List.getElem?_eq_some_iff.mp found).1

/-- A task that is put into a place leaves the others in theirs. -/
theorem task?_put_of_ne (differ : place ≠ other) :
    (host.put task place).task? other = host.task? other := by
  cases place with
  | foreground =>
    cases other with
    | foreground => exact absurd rfl differ
    | background number => rfl
  | background number =>
    cases other with
    | foreground => rfl
    | background number' => exact List.getElem?_set_ne fun same => differ (congrArg _ same)

/-- The seats of a task that is put in a place count besides those of the others. -/
theorem seatsAt_put (found : (host.task? place).isSome) (task : Task) (index : Nat) :
    ((host.put task place).seatsAt index).Perm
      (task.seatsAt index ++ (host.put .taken place).seatsAt index) := by
  cases place with
  | foreground => exact .refl _
  | background number =>
    obtain ⟨earlier, found⟩ := Option.isSome_iff_exists.mp found
    have inside : number < host.runs.length := (List.getElem?_eq_some_iff.mp found).1
    have middle := List.perm_append_comm_assoc
      ((host.foreground.toList ++ host.runs.take number).flatMap (Task.seatsAt index))
      (task.seatsAt index) ((host.runs.drop (number + 1)).flatMap (Task.seatsAt index))
    simpa [seatsAt, tasks, put, List.set_eq_take_append_cons_drop, inside, Task.seatsAt]
      using middle

/-- Of a place that is cleared and of one whose task counts as taken the seats are the same. -/
theorem seatsAt_clear (host : Host) (place : Task.Place) (index : Nat) :
    (host.clear place).seatsAt index = (host.put .taken place).seatsAt index := by
  cases place <;> rfl

/-- A place that is cleared leaves the tasks in the others. -/
theorem task?_clear_of_ne (differ : place ≠ other) :
    (host.clear place).task? other = host.task? other := by
  cases place with
  | foreground =>
    cases other with
    | foreground => exact absurd rfl differ
    | background number => rfl
  | background number => exact task?_put_of_ne differ

/-- To clear one place and to put a task into another one is done in either order. -/
theorem clear_put_comm (differ : place ≠ other) (task : Task) :
    (host.clear place).put task other = (host.put task other).clear place := by
  cases place with
  | foreground =>
    cases other with
    | foreground => exact absurd rfl differ
    | background number => rfl
  | background number => exact put_comm differ .taken task

/-! ## The same tasks -/

/-- Two hosts have the same tasks. -/
def SameTasks (host later : Host) : Prop :=
  later.runs = host.runs ∧ later.foreground = host.foreground

namespace SameTasks

variable {later : Host}

/-- There are the same tasks in the same places. -/
theorem task? (same : host.SameTasks later) (place : Task.Place) :
    later.task? place = host.task? place := by
  cases place with
  | foreground => exact same.2
  | background number => exact congrArg (·[number]?) same.1

/-- The tasks are the same all together. -/
theorem tasks (same : host.SameTasks later) : later.tasks = host.tasks := by
  rw [Host.tasks, Host.tasks, same.1, same.2]

/-- The tasks hold the same seats. -/
theorem seatsAt (same : host.SameTasks later) (index : Nat) :
    later.seatsAt index = host.seatsAt index := congrArg (·.flatMap (Task.seatsAt index)) same.tasks

/-- The same task may be put into the same place. -/
theorem put (same : host.SameTasks later) (task : Task) (place : Task.Place) :
    (host.put task place).SameTasks (later.put task place) := by
  cases place with
  | foreground => exact ⟨same.1, rfl⟩
  | background number => exact ⟨congrArg (·.set number task) same.1, same.2⟩

end SameTasks

/-- The turn of a task leaves the tasks in their places. -/
theorem sameTasks_resume (host : Host) (task : Task) : host.SameTasks (task.resume host).1 := by
  cases task <;> exact ⟨rfl, rfl⟩

/-- A task that is dropped leaves the tasks in their places. -/
theorem sameTasks_drop (host : Host) (task : Task) : host.SameTasks (task.drop host) := by
  cases task <;> exact ⟨rfl, rfl⟩

/-! ## Engines -/

/-- Hosts with the same engines have the same engine under each number. -/
theorem engine_congr {final : Host} (same : final.engines = host.engines) (index : Nat) :
    final.engine index = host.engine index := by
  rw [engine, engine, same]

/-- An environment that has not changed changes nothing. -/
theorem absorb_environment (host : Host) (index : Nat) :
    host.absorb index (host.environment (host.engine index)) = host := by
  have engines : host.engines.modify index (fun engine => { engine with
      desk := (host.engine index).desk, channel := (host.engine index).channel,
      publications := (host.engine index).publications }) =
      host.engines := by
    refine List.ext_getElem? fun other => ?_
    rw [List.getElem?_modify]
    cases found : host.engines[other]? with
    | none => rfl
    | some engine =>
      by_cases same : index = other
      · subst same
        simp [Host.engine, found]
      · simp [same]
  rw [absorb]
  simp only [environment, engines]

/-- An engine takes over the desk, the channel and the publications of its environment. -/
theorem engine_absorb_self (host : Host) {index : Nat} (inside : index < host.engines.length)
    (environment : Environment) : (host.absorb index environment).engine index =
      { host.engine index with
        desk := environment.desk
        channel := environment.channel
        publications := environment.publications } := by
  simp [Host.engine, absorb, List.getElem?_eq_getElem inside]

/-- An engine that does not exist is not changed. -/
theorem engine_absorb_of_le (host : Host) {index : Nat} (outside : host.engines.length ≤ index)
    (environment : Environment) : (host.absorb index environment).engine index =
      host.engine index := by
  simp [Host.engine, absorb, outside]

/-- Other engines take over nothing. -/
theorem engine_absorb_of_ne (host : Host) {index other : Nat} (differ : other ≠ index)
    (environment : Environment) : (host.absorb index environment).engine other =
      host.engine other := by
  simp [Host.engine, absorb, differ.symm]

/-- A workflow that is known begins on its engine. -/
theorem begin_of_find? {workflow : String} {definition : Definition}
    (known : host.library.find? workflow = some definition) (engine : Nat) (execution : String)
    (trigger : Value) :
    let result := Run.start (host.engine engine).setup definition execution trigger
      (host.environment (host.engine engine))
    host.begin engine workflow execution trigger =
      (host.absorb engine result.1, .ofState engine result.2) := by
  rw [begin, known]
  rfl

/-- A run that begins leaves the tasks in their places. -/
theorem sameTasks_begin (host : Host) (engine : Nat) (workflow execution : String)
    (trigger : Value) : host.SameTasks (host.begin engine workflow execution trigger).1 := by
  unfold begin
  split <;> exact ⟨rfl, rfl⟩

/-- A run enters in a place: in the background behind all others, or in the foreground if nobody
waits there. -/
inductive Enters (host : Host) (engine : Nat) (workflow execution : String) (trigger : Value) :
    Incident → Task.Place → Prop where
  | background : Enters host engine workflow execution trigger
      (.begins engine workflow execution trigger) (.background host.runs.length)
  | foreground (free : host.foreground = none) : Enters host engine workflow execution trigger
      (.executes engine workflow execution trigger) .foreground

/-- In one place of a host a task has been replaced by another one, or by none. The environments of
the engines are those of `later`. -/
structure Swaps (host later : Host) (changed : Task.Place) (task task' : Task) (final : Host) :
    Prop where
  environment : ∀ index,
    final.environment (final.engine index) = later.environment (later.engine index)
  others : ∀ place ≠ changed, final.task? place = host.task? place
  here : ∀ other, final.task? changed = some other → other = task'
  /-- Apart from any other place, the seats of the one task have been exchanged for those of the
  other. -/
  seats : ∀ place ≠ changed, ∀ index, ∃ rest,
    ((host.put .taken place).seatsAt index).Perm (task.seatsAt index ++ rest) ∧
      ((final.put .taken place).seatsAt index).Perm (task'.seatsAt index ++ rest)

/-- A task that is put into the place of another one replaces it. -/
theorem swaps_put {later : Host} (found : host.task? place = some task)
    (same : host.SameTasks later) (task' : Task) :
    host.Swaps later place task task' (later.put task' place) where
  environment index := by cases place <;> rfl
  others other differ := (task?_put_of_ne differ.symm).trans (same.task? other)
  here other there := by
    have known : (later.task? place).isSome := by rw [same.task?, found]; rfl
    rw [task?_put_self known] at there
    exact (Option.some.inj there).symm
  seats other differ index := by
    have stays : (host.put .taken other).task? place = some task :=
      (task?_put_of_ne differ).trans found
    have known : ((host.put .taken other).task? place).isSome := stays ▸ rfl
    have before := seatsAt_put known task index
    rw [put_of_task? stays] at before
    refine ⟨_, before, ?_⟩
    rw [put_comm differ.symm, ((same.put .taken other).put task' place).seatsAt]
    exact seatsAt_put known task' index

/-- A place that is cleared has lost its task. -/
theorem swaps_clear {later : Host} (found : host.task? place = some task)
    (same : host.SameTasks later) : host.Swaps later place task .taken (later.clear place) where
  environment index := by cases place <;> rfl
  others other differ := (task?_clear_of_ne differ.symm).trans (same.task? other)
  here other there := by
    cases place with
    | foreground => cases there
    | background number => exact (swaps_put found same .taken).here other there
  seats other differ index := by
    obtain ⟨rest, before, after⟩ := (swaps_put found same .taken).seats other differ index
    refine ⟨rest, before, ?_⟩
    rwa [clear_put_comm differ.symm, seatsAt_clear, ← put_comm differ.symm]

namespace Enters

variable {engine : Nat} {workflow execution : String} {trigger : Value} {incident : Incident}

/-- A run that has entered is found in its place. -/
theorem found (enters : host.Enters engine workflow execution trigger incident place) :
    (host.after incident).task? place =
      some (host.begin engine workflow execution trigger).2 := by
  cases enters with
  | background =>
    rw [after, ← runs_begin host engine workflow execution trigger]
    exact List.getElem?_concat_length
  | foreground free =>
    rw [after, free]
    rfl

/-- Before a run enters there is nobody in its place. -/
theorem missing (enters : host.Enters engine workflow execution trigger incident place) :
    host.task? place = none := by
  cases enters with
  | background => exact List.getElem?_eq_none (Nat.le_refl _)
  | foreground free => exact free

/-- The seats of those that were there before are those apart from the new task. -/
theorem seatsAt_put (enters : host.Enters engine workflow execution trigger incident place)
    (index : Nat) :
    ((host.after incident).put .taken place).seatsAt index = host.seatsAt index := by
  obtain ⟨runs, foreground⟩ := host.sameTasks_begin engine workflow execution trigger
  cases enters with
  | background => simp [seatsAt, tasks, put, after, runs, foreground, Task.seatsAt]
  | foreground free => simp [seatsAt, tasks, put, after, runs, free, Task.seatsAt]

/-- A run that enters replaces nobody. -/
theorem swaps (enters : host.Enters engine workflow execution trigger incident place) :
    host.Swaps (host.begin engine workflow execution trigger).1 place .taken
      (host.begin engine workflow execution trigger).2 (host.after incident) := by
  have same := host.sameTasks_begin engine workflow execution trigger
  have here : ∀ other, (host.after incident).task? place = some other →
      other = (host.begin engine workflow execution trigger).2 :=
    fun other there => (Option.some.inj (enters.found.symm.trans there)).symm
  -- The new task stands beside those that were there.
  suffices (∀ other ≠ place, (host.after incident).task? other = host.task? other) ∧
      ∀ other ≠ place, ((host.after incident).put .taken other).tasks.Perm
        ((host.begin engine workflow execution trigger).2 :: (host.put .taken other).tasks) by
    refine ⟨fun index => ?_, this.1, here, fun other differ index =>
      ⟨(host.put .taken other).seatsAt index, .refl _, (this.2 other differ).flatMap_right _⟩⟩
    cases enters with
    | background => rfl
    | foreground free => rw [after, free]; rfl
  cases enters with
  | background =>
    simp only [after]
    generalize host.begin engine workflow execution trigger = begun at same ⊢
    refine ⟨fun other differ => ?_, fun other differ => ?_⟩
    · cases other with
      | foreground => exact same.2
      | background number =>
        have apart : number ≠ host.runs.length := fun own => differ (congrArg _ own)
        have beside : (host.runs ++ [begun.2])[number]? = host.runs[number]? := by grind
        simpa only [task?, same.1] using beside
    · cases other with
      | foreground =>
        have last := List.perm_append_singleton begun.2 (.taken :: host.runs)
        simpa only [tasks, put, same.1, Option.toList_some, List.cons_append, List.nil_append]
          using last
      | background number =>
        have apart : number ≠ host.runs.length := fun own => differ (congrArg _ own)
        have beside : (host.runs ++ [begun.2]).set number .taken =
            host.runs.set number .taken ++ [begun.2] := by grind [List.set_eq_of_length_le]
        have last := List.perm_append_singleton begun.2
          (host.foreground.toList ++ host.runs.set number .taken)
        simpa only [tasks, put, same.1, same.2, beside, List.append_assoc] using last
  | foreground free =>
    refine ⟨fun other differ => ?_, fun other differ => ?_⟩
    · cases other with
      | foreground => exact absurd rfl differ
      | background number =>
        rw [after, free]
        exact same.task? (.background number)
    · cases other with
      | foreground => exact absurd rfl differ
      | background number =>
        simp [tasks, put, after, free, same.1]

end Enters

/-- Handing in a decision changes the desk of an engine, and at most gives a warning. -/
theorem handIn_eq (host : Host) (engine : Nat) (key : ReviewKey) (decision : Decision) :
    ∃ environment, environment.desk = ((host.engine engine).desk.submit key decision).2 ∧
      host.handIn engine key decision = host.absorb engine environment ∧
      environment.now = host.now ∧ environment.actions = host.library.actions := by
  unfold Host.handIn Host.within
  dsimp only
  split
  · exact ⟨_, rfl, rfl, rfl, rfl⟩
  · exact ⟨_, rfl, rfl, rfl, rfl⟩

end Host

end Workflow
