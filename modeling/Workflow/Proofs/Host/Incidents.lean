import Workflow.Host.Loading
import Workflow.Host.Reviews
import Workflow.Proofs.Host.Tasks

/-!
# What happens on a host

An incident is the smallest thing that happens on a host: one task has one turn, time passes, a run
begins or is given up, a decision is handed in, the library is edited, files change. Incidents come
in any order, so whatever is proved of every list of incidents holds however the runs interleave.
What a host does in one go, such as settling or waiting for a run, is a list of incidents too.

No incident changes the settings or the executors of an engine. A run in the background changes only
in its own turns until it is given up.
-/
namespace Workflow

namespace Host

/-- A change of the library of a host. -/
inductive Edit where
  | register (name : String) (action : Action)
  | loadText (text : String)
  | loadFile (path : String)
  /-- Load the directory that the settings of an engine name. -/
  | loadDirectory (engine : Nat)
  | reload (text : String)
  /-- Register a definition whatever actions it refers to. -/
  | insert (text : String)
  /-- Register a definition in place of another one, whatever actions it refers to. -/
  | upsert (text : String)
  | remove (name : String)

/-- Edit the library. -/
def edit (host : Host) : Edit → Host
  | .register name action => (host.register name action).2
  | .loadText text => (host.loadText text).2
  | .loadFile path => (host.loadFile path).2
  | .loadDirectory engine => (host.loadDirectory engine).2
  | .reload text => (host.reload text).2
  | .insert text => (host.insert text).2
  | .upsert text => (host.upsert text).2
  | .remove name => (host.remove name).2

/-- Something that happens on a host. -/
inductive Incident where
  /-- The task in a place goes on as far as it can. -/
  | turn (place : Task.Place)
  | passes (duration : Nat)
  /-- A run begins in the background. -/
  | begins (engine : Nat) (workflow execution : String) (trigger : Value)
  /-- A run begins in the foreground, if nobody waits there. -/
  | executes (engine : Nat) (workflow execution : String) (trigger : Value)
  | submits (engine : Nat) (key : ReviewKey) (decision : Decision)
  /-- The task in a place is dropped, or the result of a run that is over is taken. -/
  | leaves (place : Task.Place)
  | edits (edit : Edit)
  /-- The files of the disk change. -/
  | stores (disk : Disk)

/-- Hand in a decision, without letting anybody react to it. -/
def handIn (host : Host) (engine : Nat) (key : ReviewKey) (decision : Decision) : Host :=
  (host.within engine fun _ environment =>
    let (submission, desk) := environment.desk.submit key decision
    let environment := { environment with desk }
    match submission.warning? key with
    | some warning => (environment.warn warning, false)
    | none => (environment, true)).1

/-- Clear a place after its task has been dropped. -/
def clear (host : Host) : Task.Place → Host
  | .foreground => { host with foreground := none }
  | .background number => { host with runs := host.runs.set number .taken }

/-- Drop the task in a place. One that is over has nothing to drop. -/
def dismiss (host : Host) (place : Task.Place) : Host :=
  ((((host.task? place).map (Task.drop host)).getD host)).clear place

/-- The host after an incident. -/
def after (host : Host) : Incident → Host
  | .turn place => host.goOn place
  | .passes duration => { host with now := host.now + duration }
  | .begins engine workflow execution trigger =>
    let (host, task) := host.begin engine workflow execution trigger
    { host with runs := host.runs ++ [task] }
  | .executes engine workflow execution trigger =>
    if host.foreground.isSome then host
    else
      let (host, task) := host.begin engine workflow execution trigger
      { host with foreground := some task }
  | .submits engine key decision => host.handIn engine key decision
  | .leaves place => host.dismiss place
  | .edits edit => host.edit edit
  | .stores disk => { host with disk }

/-- The host after incidents. -/
def afterAll (host : Host) (incidents : List Incident) : Host := incidents.foldl after host

/-- Without incidents a host stays as it is. -/
@[simp] theorem afterAll_nil (host : Host) : host.afterAll [] = host := rfl

/-- The first incident happens before the others. -/
@[simp] theorem afterAll_cons (host : Host) (incident : Incident) (rest : List Incident) :
    host.afterAll (incident :: rest) = (host.after incident).afterAll rest := rfl

/-- Two lists of incidents happen one after the other. -/
theorem afterAll_append (host : Host) (first second : List Incident) :
    host.afterAll (first ++ second) = (host.afterAll first).afterAll second :=
  List.foldl_append

/-! ## Engines -/

/-- What an incident leaves alone in every engine. -/
def plans (host : Host) : List (Settings × List CustomExecutor) :=
  host.engines.map fun engine => (engine.settings, engine.custom)

/-- Two hosts have engines of the same settings and executors. -/
def SamePlans (host later : Host) : Prop := later.plans = host.plans

/-- Hosts with the same plans as one between them have the same plans. -/
theorem SamePlans.trans {first second third : Host} (earlier : first.SamePlans second)
    (later : second.SamePlans third) : first.SamePlans third := Eq.trans later earlier

/-- To have the same plans is mutual. -/
theorem SamePlans.symm {host later : Host} (same : host.SamePlans later) : later.SamePlans host :=
  Eq.symm same

/-- Each engine has the same settings and custom executors. -/
theorem SamePlans.engine {host later : Host} (same : host.SamePlans later) (index : Nat) :
    (later.engine index).settings = (host.engine index).settings ∧
      (later.engine index).custom = (host.engine index).custom := by
  have each := congrArg (·[index]?) same
  simp only [plans, List.getElem?_map] at each
  unfold Host.engine
  cases first : host.engines[index]? <;> cases second : later.engines[index]? <;>
    simp_all

/-- Each engine executes steps in the same way. -/
theorem SamePlans.setup {host later : Host} (same : host.SamePlans later) (index : Nat) :
    (later.engine index).setup = (host.engine index).setup := by
  obtain ⟨settings, custom⟩ := same.engine index
  rw [Engine.setup, Engine.setup, settings, custom]

/-- There are as many engines. -/
theorem SamePlans.length {host later : Host} (same : host.SamePlans later) :
    later.engines.length = host.engines.length := by
  simpa [plans] using congrArg List.length same

/-- What becomes of an environment leaves the plans as they are. -/
theorem samePlans_absorb (host : Host) (index : Nat) (environment : Environment) :
    host.SamePlans (host.absorb index environment) := by
  unfold SamePlans plans absorb
  refine List.ext_getElem? fun other => ?_
  simp only [List.getElem?_map, List.getElem?_modify]
  split <;> cases host.engines[other]? <;> rfl

/-- The turn of a task leaves the plans as they are. -/
theorem samePlans_resume (host : Host) (task : Task) : host.SamePlans (task.resume host).1 := by
  cases task with
  | single | running => exact samePlans_absorb host _ _
  | ended | taken => rfl

/-- A task that is dropped leaves the plans as they are. -/
theorem samePlans_drop (host : Host) (task : Task) : host.SamePlans (task.drop host) := by
  cases task with
  | single | running => exact samePlans_absorb host _ _
  | ended | taken => rfl

/-- A run that begins leaves the plans as they are. -/
theorem samePlans_begin (host : Host) (engine : Nat) (workflow execution : String)
    (trigger : Value) : host.SamePlans (host.begin engine workflow execution trigger).1 := by
  unfold begin
  split
  · rfl
  · exact samePlans_absorb host engine _

/-- An edit changes only the library; that a directory is missing gives a warning. -/
theorem edit_eq (host : Host) (edit : Edit) : ∃ library,
    host.edit edit = { host with library } ∨ host.edit edit = host.warn .missingDirectory := by
  cases edit with
  | register name action =>
    simp only [Host.edit, register, change]
    split
    · exact ⟨_, .inl rfl⟩
    · exact ⟨host.library, .inl rfl⟩
  | loadText text =>
    simp only [Host.edit, loadText, changeNamed]
    split
    · exact ⟨_, .inl rfl⟩
    · exact ⟨host.library, .inl rfl⟩
  | loadFile path =>
    simp only [Host.edit, loadFile, changeNamed]
    split
    · exact ⟨_, .inl rfl⟩
    · exact ⟨host.library, .inl rfl⟩
  | loadDirectory engine =>
    simp only [Host.edit, loadDirectory]
    split
    · exact ⟨host.library, .inl rfl⟩
    · exact ⟨host.library, .inr rfl⟩
    · exact ⟨_, .inl rfl⟩
    · exact ⟨_, .inl rfl⟩
  | reload text =>
    simp only [Host.edit, reload, change]
    split
    · exact ⟨_, .inl rfl⟩
    · exact ⟨host.library, .inl rfl⟩
  | insert text =>
    simp only [Host.edit, insert, changeNamed]
    split
    · exact ⟨_, .inl rfl⟩
    · exact ⟨host.library, .inl rfl⟩
  | upsert text =>
    simp only [Host.edit, upsert]
    split
    · exact ⟨_, .inl rfl⟩
    · exact ⟨host.library, .inl rfl⟩
  | remove name => exact ⟨_, .inl rfl⟩

/-- No incident changes the settings or the executors of an engine. -/
theorem samePlans_after (host : Host) (incident : Incident) :
    host.SamePlans (host.after incident) := by
  cases incident with
  | turn place =>
    simp only [after, goOn]
    split
    next task _ =>
      have same := samePlans_resume host task
      cases place <;> exact same
    next => rfl
  | passes | stores => rfl
  | begins engine workflow execution trigger =>
    exact samePlans_begin host engine workflow execution trigger
  | executes engine workflow execution trigger =>
    simp only [after]
    split
    · rfl
    · exact samePlans_begin host engine workflow execution trigger
  | submits engine => exact samePlans_absorb host engine _
  | leaves place =>
    simp only [after, dismiss]
    have same : host.SamePlans (((host.task? place).map (Task.drop host)).getD host) := by
      cases host.task? place with
      | none => rfl
      | some task => exact samePlans_drop host task
    cases place <;> exact same
  | edits edit =>
    obtain ⟨library, same | same⟩ := host.edit_eq edit <;> rw [after, same] <;> rfl

/-- Whatever happens leaves the plans as they are. -/
theorem samePlans_afterAll (host : Host) (incidents : List Incident) :
    host.SamePlans (host.afterAll incidents) := by
  induction incidents generalizing host with
  | nil => rfl
  | cons incident rest ih => exact (samePlans_after host incident).trans (ih _)

/-! ## Runs in the background -/

/-- The task in a place is one of the tasks. -/
theorem mem_tasks_of_task? {host : Host} {place : Task.Place} {task : Task}
    (found : host.task? place = some task) : task ∈ host.tasks := by
  cases place with
  | foreground => exact List.mem_append_left _ (Option.mem_toList.mpr found)
  | background number => exact List.mem_append_right _ (List.mem_of_getElem? found)

/-- What is in a place after a task was put there is the task or was there before. -/
theorem mem_tasks_put {host : Host} {place : Task.Place} {task other : Task}
    (known : other ∈ (host.put task place).tasks) : other = task ∨ other ∈ host.tasks := by
  cases place with
  | foreground =>
    rcases List.mem_cons.mp known with rfl | later
    · exact .inl rfl
    · exact .inr (List.mem_append_right _ later)
  | background number =>
    rcases List.mem_append.mp known with first | later
    · exact .inr (List.mem_append_left _ first)
    · rcases List.mem_or_eq_of_mem_set later with earlier | rfl
      · exact .inr (List.mem_append_right _ earlier)
      · exact .inl rfl

/-- A task that is dropped leaves the runs in the background in their places. -/
theorem runs_drop (host : Host) (task : Task) : (task.drop host).runs = host.runs := by
  cases task <;> rfl

/-- What an incident does to a run in the background: nothing, a turn, or it is given up. -/
theorem run_after {host : Host} {number : Nat} {task : Task}
    (found : host.runs[number]? = some task) (incident : Incident) :
    (host.after incident).runs[number]? = some task ∨
      (host.after incident).runs[number]? = some (task.resume host).2 ∨
      (host.after incident).runs[number]? = some .taken := by
  have inside : number < host.runs.length := (List.getElem?_eq_some_iff.mp found).1
  cases incident with
  | turn place =>
    simp only [after, goOn]
    cases turned : host.task? place with
    | none => exact .inl found
    | some other =>
      cases place with
      | foreground => exact .inl (runs_resume host other ▸ found)
      | background place =>
        simp only [put, runs_resume]
        by_cases same : place = number
        · subst same
          obtain rfl : task = other := Option.some.inj (found.symm.trans turned)
          exact .inr (.inl (List.getElem?_set_self inside))
        · exact .inl (by rwa [List.getElem?_set_ne same])
  | passes | stores => exact .inl found
  | begins engine workflow execution trigger =>
    refine .inl ?_
    simp only [after, runs_begin]
    rwa [List.getElem?_append_left inside]
  | executes engine workflow execution trigger =>
    refine .inl ?_
    simp only [after]
    split
    · exact found
    · exact (runs_begin host engine workflow execution trigger).symm ▸ found
  | submits => exact .inl found
  | leaves place =>
    have same : (((host.task? place).map (Task.drop host)).getD host).runs = host.runs := by
      cases host.task? place with
      | none => rfl
      | some other => exact runs_drop host other
    simp only [after, dismiss]
    cases place with
    | foreground => exact .inl (same.symm ▸ found)
    | background place =>
      simp only [clear, same]
      by_cases own : place = number
      · subst own
        exact .inr (.inr (List.getElem?_set_self inside))
      · exact .inl (by rwa [List.getElem?_set_ne own])
  | edits edit =>
    refine .inl ?_
    obtain ⟨library, same | same⟩ := host.edit_eq edit <;> rw [after, same] <;> exact found

/-- What the turns of a run keep holds of it as long as it is not given up. -/
theorem run_afterAll {kept : Task → Prop} {host : Host} {number : Nat} {task : Task}
    (found : host.runs[number]? = some task) (first : kept task)
    (resume : ∀ later, host.SamePlans later → ∀ task, kept task → kept (task.resume later).2)
    (taken : kept .taken) (incidents : List Incident) :
    ∃ last, (host.afterAll incidents).runs[number]? = some last ∧ kept last := by
  -- The host changes with every incident; only its plans are those of the first host.
  suffices ∀ (current : Host) (task : Task), host.SamePlans current →
      current.runs[number]? = some task → kept task →
      ∃ last, (current.afterAll incidents).runs[number]? = some last ∧ kept last from
    this host task rfl found first
  induction incidents with
  | nil => exact fun current task _ found holds => ⟨task, found, holds⟩
  | cons incident rest ih =>
    intro current task same found holds
    have plans := same.trans (samePlans_after current incident)
    rcases run_after found incident with stays | turned | left
    · exact ih _ _ plans stays holds
    · exact ih _ _ plans turned (resume current same task holds)
    · exact ih _ _ plans left taken

/-! ## What a host does in one go -/

/-- A task goes on or time passes; nobody intervenes. -/
def Incident.GoesOn : Incident → Prop
  | .turn _ | .passes _ => True
  | _ => False

/-- A host has become another one by going on. -/
def Leads (host later : Host) : Prop :=
  ∃ incidents, (∀ incident ∈ incidents, incident.GoesOn) ∧ later = host.afterAll incidents

/-- A host leads to itself. -/
theorem Leads.refl (host : Host) : host.Leads host := ⟨[], by simp, rfl⟩

/-- To go on twice is to go on. -/
theorem Leads.trans {first second third : Host} (earlier : first.Leads second)
    (later : second.Leads third) : first.Leads third := by
  obtain ⟨incidents, goOn, rfl⟩ := earlier
  obtain ⟨others, goOnToo, rfl⟩ := later
  exact ⟨incidents ++ others, List.forall_mem_append.mpr ⟨goOn, goOnToo⟩,
    (first.afterAll_append incidents others).symm⟩

/-- A single incident by which a host goes on leads to what it comes to. -/
theorem Leads.one (host : Host) {incident : Incident} (goesOn : incident.GoesOn) :
    host.Leads (host.after incident) :=
  ⟨[incident], List.forall_mem_singleton.mpr goesOn, rfl⟩

/-- A host goes on while it settles. -/
theorem leads_settleWithin (turns : Nat) (queue : List Task.Place) (host : Host) :
    host.Leads (settleWithin turns queue host) := by
  induction turns generalizing queue host with
  | zero => exact .refl host
  | succ turns ih =>
    cases queue with
    | nil => exact .refl host
    | cons place queue =>
      rw [settleWithin]
      have turned : host.Leads (host.after (.turn place)) := .one host trivial
      exact turned.trans (ih _ _)

/-- To settle is to let tasks have turns. -/
theorem leads_settle (host : Host) : host.Leads host.settle := leads_settleWithin _ _ host

/-- A turn takes no time. -/
theorem now_goOn (host : Host) (place : Task.Place) : (host.goOn place).now = host.now := by
  unfold goOn
  split
  next task _ => cases task <;> cases place <;> rfl
  next => rfl

/-- To settle takes no time. -/
theorem now_settleWithin (turns : Nat) (queue : List Task.Place) (host : Host) :
    (settleWithin turns queue host).now = host.now := by
  induction turns generalizing queue host with
  | zero => rfl
  | succ turns ih =>
    cases queue with
    | nil => rfl
    | cons place queue => rw [settleWithin, ih, now_goOn]

/-- The clock of a host can be put forward. -/
theorem leads_clock (host : Host) {time : Nat} (later : host.now ≤ time) :
    host.Leads { host with now := time } := by
  refine ⟨[.passes (time - host.now)], List.forall_mem_singleton.mpr trivial, ?_⟩
  rw [afterAll_cons, afterAll_nil, after, Nat.add_sub_cancel' later]

/-- To wait is to let tasks have turns and time pass. -/
theorem leads_waitUntil (deadline : Nat) (isDone : Host → Bool) (host : Host)
    (future : host.now ≤ deadline) : host.Leads (host.waitUntil deadline isDone).1 := by
  have settled : host.settle.now = host.now := now_settleWithin _ _ host
  fun_induction waitUntil deadline isDone host with
  | case1 => exact leads_settle _
  | case2 => exact (leads_settle _).trans (leads_clock _ (settled ▸ future))
  | case3 host _ _ time _ inTime ih =>
    have reached := leads_clock host.settle (settled ▸ Nat.le_of_lt inTime.1)
    exact (leads_settle _).trans (reached.trans (ih inTime.2 (now_settleWithin _ _ _)))
  | case4 => exact (leads_settle _).trans (leads_clock _ (settled ▸ future))

/-- The result of a run that is executed is one with which it has ended when the host went on. -/
theorem executeWithId_leads {host : Host} {engine : Nat} {workflow execution : String}
    {trigger : Value} {result : Except EngineError Report}
    (finished : (host.executeWithId engine workflow execution trigger).1 = .finished result) :
    ∃ later, (host.after (.begins engine workflow execution trigger)).Leads later ∧
      later.runs[host.runs.length]? = some (.ended result) := by
  have number : (host.start engine workflow execution trigger).1 = host.runs.length :=
    congrArg List.length (runs_begin ..)
  have started : (host.after (.begins engine workflow execution trigger)).Leads
      (host.start engine workflow execution trigger).2 := leads_settle _
  rw [executeWithId] at finished
  generalize host.start engine workflow execution trigger = begun at finished number started
  obtain ⟨_, later⟩ := begun
  obtain rfl := number
  have waited := leads_waitUntil (patience + later.now) (isOver host.runs.length) later
    (Nat.le_add_left _ _)
  simp only [join, await] at finished
  generalize later.waitUntil (patience + later.now) (isOver host.runs.length) = ended
    at finished waited
  obtain ⟨last, done⟩ := ended
  cases done with
  | false => cases finished
  | true => exact ⟨last, started.trans waited, take_eq_finished finished⟩

end Host

end Workflow
