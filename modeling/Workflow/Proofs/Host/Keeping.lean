import Workflow.Proofs.Host.Places
import Workflow.Proofs.Review.Mirror

/-!
# What every incident keeps

Whatever happens on a host, the desk of an engine only undergoes a few operations: somebody makes a
request, discards one, leaves his seat, or hands in a decision. `Desk.Keeps` lists what facts about
the seats and the desk must survive, one field for each operation. Such facts survive every incident
(`Host.Keeping.after`), whichever task acts, and on all engines at once.

A run also keeps to those whom it may ask, as far as its engine, its definition and its execution
tell: `asks` stands for that, and for nothing where custom executors may ask anybody.
-/
namespace Workflow

/-! ## Operations at a desk -/

/-- Facts about the seats that are held at a desk survive whatever is done at it. -/
structure Desk.Keeps (facts : List Seat → Desk → Prop) : Prop where
  /-- The order in which the seats are counted does not matter. -/
  order : ∀ {seats seats' : List Seat} {desk : Desk}, facts seats desk → seats.Perm seats' →
    facts seats' desk
  sitDown : ∀ {seats : List Seat} {desk : Desk} (request : Request), facts seats desk →
    facts ((desk.sitDown request).1 :: seats) (desk.sitDown request).2
  discard : ∀ {seats : List Seat} {desk : Desk} (key : ReviewKey), facts seats desk →
    facts seats (desk.discard key)
  standUp : ∀ {seats : List Seat} {desk : Desk} {seat : Seat}, facts (seat :: seats) desk →
    facts seats (desk.standUp seat)
  submit : ∀ {seats : List Seat} {desk : Desk} (key : ReviewKey) (decision : Decision),
    facts seats desk → facts seats (desk.submit key decision).2

/-- An orderly desk stays orderly. -/
theorem Desk.keeps_orderly : Desk.Keeps fun seats desk => desk.Orderly seats [] where
  order orderly same := orderly.perm same
  sitDown request orderly := orderly.sitDown request
  discard key orderly := orderly.discard key
  standUp orderly := orderly.standUp
  submit key decision orderly := orderly.submitted key decision

/-- Rules that only say whom one may ask. -/
def Rules.asking (asks : ReviewKey → Prop) : Rules where
  registered _ := False
  asks := asks
  tolerates _ := True
  allows _ := True
  replaces _ _ := trivial

/-- Rules about requests rely on no action. -/
theorem Rules.asking_free (asks : ReviewKey → Prop) :
    ∀ action, ¬(Rules.asking asks).registered action := fun _ impossible => impossible

/-- Under such rules only the desk matters. -/
theorem Desk.Keeps.rules {facts : List Seat → Desk → Prop} (keeps : Desk.Keeps facts)
    (asks : ReviewKey → Prop) :
    (Rules.asking asks).Keeps fun seats environment => facts seats environment.desk where
  order := keeps.order
  quiet known quiet := quiet.desk ▸ known
  warn _ known _ := known
  found _ impossible := impossible.elim
  sitDown request known _ := keeps.sitDown request known
  discard key known _ := keeps.discard key known
  leave known _ := keeps.standUp known

/-! ## Tasks -/

/-- Whom a run may ask, by its engine, its definition and its execution. -/
abbrev Circle := Nat → Definition → String → ReviewKey → Prop

/-- The rules of a run on an engine. -/
def Circle.rules (asks : Circle) (engine : Nat) (definition : Definition) (execution : String) :
    Rules := .asking (asks engine definition execution)

/-- A task is a run that asks only those whom it may ask, or is over. -/
inductive Task.Obeys (asks : Circle) : Task → Prop where
  | running {engine : Nat} {run : Run} {execution : String}
      (obeys : (RunState.waiting run).Obeys (asks.rules engine run.definition execution)
        run.definition execution) : Obeys asks (.running engine run)
  | ended (result : Except EngineError Report) : Obeys asks (.ended result)
  | taken : Obeys asks .taken

/-- The task of a run that obeys the rules of a circle keeps to the circle. -/
theorem RunState.Obeys.taskObeys {asks : Circle} {engine : Nat} {definition : Definition}
    {execution : String} {state : RunState}
    (obeys : state.Obeys (asks.rules engine definition execution) definition execution) :
    (Task.ofState engine state).Obeys asks := by
  cases obeys with
  | waiting same done inside remain =>
    subst same
    exact .running (.waiting rfl done inside remain)
  | ended => exact .ended _

namespace Host

variable {host later final : Host} {asks : Circle} {facts : Nat → List Seat → Desk → Prop}
  {seats seats' : Nat → List Seat}

/-- The definitions let their runs on an engine ask only those whom they may ask. -/
def Conducts (host : Host) (asks : Circle) : Prop :=
  ∀ (engine : Nat) (definition : Definition) (execution : String),
    definition.Obeys (asks.rules engine definition execution) (host.engine engine).setup execution

/-- Engines with the same plans let runs ask those whom they may ask. -/
theorem SamePlans.conducts (same : host.SamePlans later) (conducts : host.Conducts asks) :
    later.Conducts asks := by
  intro engine
  rw [same.setup engine]
  exact conducts engine

/-- Seats at the desks of a host have been exchanged for others: facts that held with the former
hold with the latter, whoever else holds seats. -/
structure Exchanges (facts : Nat → List Seat → Desk → Prop) (host later : Host)
    (seats seats' : Nat → List Seat) : Prop where
  plans : host.SamePlans later
  desks : ∀ index < host.engines.length, ∀ others,
    facts index (seats index ++ others) (host.engine index).desk →
      facts index (seats' index ++ others) (later.engine index).desk

/-- To exchange seats for themselves keeps all facts. -/
theorem Exchanges.refl (facts : Nat → List Seat → Desk → Prop) (host : Host)
    (seats : Nat → List Seat) : host.Exchanges facts host seats seats :=
  ⟨rfl, fun _ _ _ known => known⟩

/-- What happens in the environment of one engine exchanges seats there. -/
theorem Exchanges.absorb {engine : Nat} {environment : Environment}
    (here : ∀ others, facts engine (seats engine ++ others) (host.engine engine).desk →
      facts engine (seats' engine ++ others) environment.desk)
    (elsewhere : ∀ index ≠ engine, seats' index = seats index) :
    host.Exchanges facts (host.absorb engine environment) seats seats' where
  plans := samePlans_absorb host engine environment
  desks index inside others known := by
    by_cases own : index = engine
    · subst own
      rw [engine_absorb_self host inside]
      exact here others known
    · rw [engine_absorb_of_ne host own, elsewhere index own]
      exact known

section

variable (keeps : ∀ index, Desk.Keeps (facts index))

include keeps

/-- A task that has a turn still asks only those whom it may ask, and it exchanges its seats. -/
theorem Exchanges.resume (conducts : host.Conducts asks) {task : Task}
    (obeys : task.Obeys asks) : (task.resume host).2.Obeys asks ∧
      host.Exchanges facts (task.resume host).1 task.seatsAt (task.resume host).2.seatsAt := by
  cases obeys with
  | @running engine run execution obeys =>
    have conduct := conducts engine run.definition execution
    have state := Run.resume_obeys (Rules.keeps_true (Rules.asking_free _))
      (fun _ _ _ _ => trivial) conduct (host.environment (host.engine engine)) obeys [] trivial
    refine ⟨RunState.Obeys.taskObeys state.1, .absorb (fun others known => ?_) ?_⟩
    · rw [Task.seatsAt_running] at known
      rw [Task.resume, Host.within, Task.seatsAt_ofState, if_pos rfl]
      exact (Run.resume_obeys ((keeps engine).rules _) (fun _ _ _ _ => trivial) conduct
        (host.environment (host.engine engine)) obeys others known).2
    · intro index differ
      rw [Task.resume, Host.within, Task.seatsAt_ofState, if_neg differ.symm,
        Task.seatsAt_running_of_ne differ]
  | ended result => exact ⟨.ended result, .refl facts host _⟩
  | taken => exact ⟨.taken, .refl facts host _⟩

/-- A run that begins asks only those whom it may ask, and it takes its seats. -/
theorem Exchanges.begin (conducts : host.Conducts asks) (engine : Nat)
    (workflow execution : String) (trigger : Value) :
    (host.begin engine workflow execution trigger).2.Obeys asks ∧
      host.Exchanges facts (host.begin engine workflow execution trigger).1 (fun _ => [])
        (host.begin engine workflow execution trigger).2.seatsAt := by
  unfold Host.begin
  split
  next => exact ⟨.ended _, .refl facts host _⟩
  next definition _ =>
    have conduct := conducts engine definition execution
    have state := Run.start_obeys (Rules.keeps_true (Rules.asking_free _))
      (fun _ _ _ _ => trivial) conduct trigger (host.environment (host.engine engine)) [] trivial
    refine ⟨RunState.Obeys.taskObeys state.1, .absorb (fun others known => ?_) ?_⟩
    · rw [Host.within, Task.seatsAt_ofState, if_pos rfl]
      exact (Run.start_obeys ((keeps engine).rules _) (fun _ _ _ _ => trivial) conduct trigger
        (host.environment (host.engine engine)) others known).2
    · intro index differ
      rw [Host.within, Task.seatsAt_ofState, if_neg differ.symm]

/-- A task that is dropped leaves its seats. -/
theorem Exchanges.drop {task : Task} (obeys : task.Obeys asks) :
    host.Exchanges facts (task.drop host) task.seatsAt fun _ => [] := by
  cases obeys with
  | @running engine run execution obeys =>
    cases obeys with
    | waiting _ _ inside _ =>
      refine .absorb (fun others known => ?_) fun index differ => ?_
      · rw [Task.seatsAt_running] at known
        exact inside.drop ((keeps engine).rules _) (host.environment (host.engine engine)) others
          known
      · exact (Task.seatsAt_running_of_ne differ run).symm
  | ended | taken => exact .refl facts host _

end

/-! ## Hosts -/

/-- The runs on a host ask only those whom they may ask, and facts hold of each desk and the seats
that are held at it. -/
structure Keeping (host : Host) (asks : Circle) (facts : Nat → List Seat → Desk → Prop) :
    Prop where
  conducts : host.Conducts asks
  tasks : ∀ task ∈ host.tasks, task.Obeys asks
  desks : ∀ index < host.engines.length,
    facts index (host.seatsAt index) (host.engine index).desk

/-- Apart from the task in a place, the seats on a host are those without it. -/
theorem seatsAt_of_task? {place : Task.Place} {task : Task} (found : host.task? place = some task)
    (index : Nat) : (host.seatsAt index).Perm
      (task.seatsAt index ++ (host.put .taken place).seatsAt index) := by
  have known : (host.task? place).isSome := Option.isSome_iff_exists.mpr ⟨task, found⟩
  have counted := seatsAt_put known task index
  rwa [put_of_task? found] at counted

namespace Keeping

/-- Where the engines and the tasks are the same, the facts still hold. -/
theorem same (keeping : host.Keeping asks facts) (engines : final.engines = host.engines)
    (tasks : final.tasks = host.tasks) : final.Keeping asks facts where
  conducts engine := by
    rw [engine_congr engines]
    exact keeping.conducts engine
  tasks := by
    rw [tasks]
    exact keeping.tasks
  desks index inside := by
    rw [engine_congr engines, seatsAt, tasks]
    exact keeping.desks index (engines ▸ inside)

variable (keeps : ∀ index, Desk.Keeps (facts index))

include keeps

/-- Where seats have been exchanged, and those of others stay, the facts still hold. -/
theorem exchange (keeping : host.Keeping asks facts)
    (exchanges : host.Exchanges facts later seats seats') (engines : final.engines = later.engines)
    (tasks : ∀ task ∈ final.tasks, task.Obeys asks) (rest : Nat → List Seat)
    (before : ∀ index, (host.seatsAt index).Perm (seats index ++ rest index))
    (after : ∀ index, (final.seatsAt index).Perm (seats' index ++ rest index)) :
    final.Keeping asks facts where
  conducts engine := by
    rw [engine_congr engines]
    exact exchanges.plans.conducts keeping.conducts engine
  tasks := tasks
  desks index inside := by
    rw [engines, exchanges.plans.length] at inside
    rw [engine_congr engines]
    -- The seats of all others are held beside those that are exchanged.
    have known := (keeps index).order (keeping.desks index inside) (before index)
    exact (keeps index).order (exchanges.desks index inside _ known) (after index).symm

/-- A run that has begun has entered, with the seats that it took. -/
theorem enter (keeping : host.Keeping asks facts) (engine : Nat)
    (workflow execution : String) (trigger : Value)
    (engines : final.engines = (host.begin engine workflow execution trigger).1.engines)
    (tasks : final.tasks.Perm
      ((host.begin engine workflow execution trigger).2 :: host.tasks)) :
    final.Keeping asks facts := by
  obtain ⟨own, exchanges⟩ :=
    Exchanges.begin keeps keeping.conducts engine workflow execution trigger
  refine keeping.exchange keeps exchanges engines (fun task known => ?_) host.seatsAt
    (fun _ => .refl _) fun index => tasks.flatMap_right _
  rcases List.mem_cons.mp (tasks.mem_iff.mp known) with rfl | earlier
  · exact own
  · exact keeping.tasks task earlier

/-- The facts are kept in the turn of a place. -/
theorem goOn (keeping : host.Keeping asks facts) (place : Task.Place) :
    (host.goOn place).Keeping asks facts := by
  cases found : host.task? place with
  | none =>
    rw [Host.goOn, found]
    exact keeping
  | some task =>
    have known : (host.task? place).isSome := Option.isSome_iff_exists.mpr ⟨task, found⟩
    obtain ⟨own, exchanges⟩ := Exchanges.resume keeps keeping.conducts
      (keeping.tasks task (mem_tasks_of_task? found))
    have unmoved := (sameTasks_resume host task).put (task.resume host).2 place
    rw [goOn_of_task? found]
    refine keeping.exchange keeps exchanges (by cases place <;> rfl) (fun other member => ?_)
      (host.put .taken place).seatsAt (seatsAt_of_task? found) fun index => ?_
    · rw [unmoved.tasks] at member
      rcases mem_tasks_put member with rfl | earlier
      · exact own
      · exact keeping.tasks other earlier
    · rw [unmoved.seatsAt]
      exact seatsAt_put known _ index

/-- The facts are kept when a place is given up. -/
theorem dismiss (keeping : host.Keeping asks facts) (place : Task.Place) :
    (host.dismiss place).Keeping asks facts := by
  cases found : host.task? place with
  | none =>
    rw [Host.dismiss, found]
    exact (clear_of_missing found).symm ▸ keeping
  | some task =>
    have exchanges : host.Exchanges facts (task.drop host) _ _ :=
      .drop keeps (keeping.tasks task (mem_tasks_of_task? found))
    have unmoved := (sameTasks_drop host task).put .taken place
    rw [dismiss_of_task? found]
    refine keeping.exchange keeps exchanges (by cases place <;> rfl) (fun other member => ?_)
      (host.put .taken place).seatsAt (seatsAt_of_task? found) fun index => ?_
    · have among : other ∈ ((task.drop host).put .taken place).tasks := by
        cases place with
        | foreground => exact List.mem_cons_of_mem _ member
        | background number => exact member
      rw [unmoved.tasks] at among
      rcases mem_tasks_put among with rfl | earlier
      · exact .taken
      · exact keeping.tasks other earlier
    · rw [seatsAt_clear, unmoved.seatsAt]
      exact .refl _

/-- The facts are kept when a decision is handed in. -/
theorem handIn (keeping : host.Keeping asks facts) (engine : Nat) (key : ReviewKey)
    (decision : Decision) :
    (host.handIn engine key decision).Keeping asks facts := by
  obtain ⟨environment, desk, absorbed, -⟩ := host.handIn_eq engine key decision
  have exchanges : host.Exchanges facts (host.absorb engine environment) (fun _ => [])
      fun _ => [] := by
    refine .absorb (fun others known => ?_) fun _ _ => rfl
    rw [desk]
    exact (keeps engine).submit key decision known
  rw [absorbed]
  exact keeping.exchange keeps exchanges rfl keeping.tasks host.seatsAt (fun _ => .refl _)
    fun _ => .refl _

/-- The facts survive every incident. -/
theorem after (keeping : host.Keeping asks facts) (incident : Incident) :
    (host.after incident).Keeping asks facts := by
  cases incident with
  | turn place => exact keeping.goOn keeps place
  | passes | stores => exact keeping.same rfl rfl
  | begins engine workflow execution trigger =>
    refine keeping.enter keeps engine workflow execution trigger rfl ?_
    rw [← (host.sameTasks_begin engine workflow execution trigger).tasks, Host.tasks, Host.tasks,
      Host.after, ← List.append_assoc]
    exact List.perm_append_singleton _ _
  | executes engine workflow execution trigger =>
    simp only [Host.after]
    split
    · exact keeping
    next free =>
      refine keeping.enter keeps engine workflow execution trigger rfl ?_
      have none : host.foreground = none := by simpa using free
      rw [Host.tasks, Host.tasks, none, runs_begin]
      exact .refl _
  | submits engine key decision => exact keeping.handIn keeps engine key decision
  | leaves place => exact keeping.dismiss keeps place
  | edits edit =>
    obtain ⟨library, same | same⟩ := host.edit_eq edit <;> rw [Host.after, same] <;>
      exact keeping.same rfl rfl

/-- The facts are kept whatever happens. -/
theorem afterAll (keeping : host.Keeping asks facts) (incidents : List Incident) :
    (host.afterAll incidents).Keeping asks facts := by
  induction incidents generalizing host with
  | nil => exact keeping
  | cons incident rest ih => exact ih (keeping.after keeps incident)

end Keeping

end Host

end Workflow
