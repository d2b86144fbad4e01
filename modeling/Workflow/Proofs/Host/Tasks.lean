import Workflow.Host.Runs
import Workflow.Proofs.Run.Order

/-!
# Tasks of a host

A task goes on turn by turn, and between two turns anything may happen to the host: other tasks go
on, humans hand in decisions, actions and definitions are registered, time passes. `Task.Onward`
says that a task has come from another one by such turns. Each thing that a host does lets the runs
in the background go onward and does nothing else to them, so whatever holds of a run after any
turns holds of the results that the host gives.
-/
namespace Workflow

/-- A task has come from another one by turns, each taken on some host. -/
inductive Task.Onward (task : Task) : Task → Prop where
  | here : Onward task task
  | resume {later : Task} (earlier : Onward task later) (host : Host) :
      Onward task (later.resume host).2

/-- To go onward twice is to go onward. -/
theorem Task.Onward.trans {first second third : Task} (earlier : first.Onward second)
    (later : second.Onward third) : first.Onward third := by
  induction later with
  | here => exact earlier
  | resume _ host ih => exact ih.resume host

/-- A task that has ended stays as it is. -/
theorem Task.Onward.of_ended {result : Except EngineError Report} {task : Task}
    (onward : (Task.ended result).Onward task) : task = .ended result := by
  induction onward with
  | here => rfl
  | resume _ host ih => rw [ih]; rfl

namespace Host

/-- Every run in the background has gone onward. -/
def Onward (host later : Host) : Prop :=
  ∀ (number : Nat) (task : Task), host.runs[number]? = some task →
    ∃ further : Task, later.runs[number]? = some further ∧ task.Onward further

/-- Runs that have not changed have gone onward. -/
theorem Onward.of_runs {host later : Host} (same : later.runs = host.runs) :
    host.Onward later := fun _ task found => ⟨task, same ▸ found, .here⟩

/-- To go onward twice is to go onward, for all runs. -/
theorem Onward.trans {first second third : Host} (earlier : first.Onward second)
    (later : second.Onward third) : first.Onward third := by
  intro number task found
  obtain ⟨middle, foundMiddle, toMiddle⟩ := earlier number task found
  obtain ⟨last, foundLast, toLast⟩ := later number middle foundMiddle
  exact ⟨last, foundLast, toMiddle.trans toLast⟩

/-- The turn of a task leaves the runs in the background in their places. -/
theorem runs_resume (host : Host) (task : Task) : (task.resume host).1.runs = host.runs := by
  cases task <;> rfl

/-- A turn lets the runs go onward. -/
theorem onward_goOn (host : Host) (place : Task.Place) : host.Onward (host.goOn place) := by
  unfold goOn
  cases found : host.task? place with
  | none => exact .of_runs rfl
  | some task =>
    cases place with
    | foreground => exact .of_runs (runs_resume host task)
    | background turned =>
      intro number other foundOther
      simp only [put, runs_resume]
      by_cases same : turned = number
      · subst same
        have inside : turned < host.runs.length := (List.getElem?_eq_some_iff.mp foundOther).1
        obtain rfl : task = other := Option.some.inj (found.symm.trans foundOther)
        exact ⟨_, List.getElem?_set_self inside, Task.Onward.here.resume host⟩
      · exact ⟨other, by rwa [List.getElem?_set_ne same], .here⟩

/-- Runs go onward while a host settles within a number of turns. -/
theorem onward_settleWithin (turns : Nat) (queue : List Task.Place) (host : Host) :
    host.Onward (settleWithin turns queue host) := by
  induction turns generalizing queue host with
  | zero => exact .of_runs rfl
  | succ turns ih =>
    cases queue with
    | nil => exact .of_runs rfl
    | cons place queue =>
      rw [settleWithin]
      exact (onward_goOn host place).trans (ih _ _)

/-- Runs go onward while a host settles. -/
theorem onward_settle (host : Host) : host.Onward host.settle := onward_settleWithin _ _ host

/-- Runs go onward while a host waits for something. -/
theorem onward_waitUntil (deadline : Nat) (isDone : Host → Bool) (host : Host) :
    host.Onward (host.waitUntil deadline isDone).1 := by
  fun_induction waitUntil deadline isDone host with
  | case1 host settled done => exact onward_settle host
  | case2 host settled pending idle => exact (onward_settle host).trans (.of_runs rfl)
  | case3 host settled pending time next inTime ih =>
    exact (onward_settle host).trans ((Onward.of_runs rfl).trans ih)
  | case4 host settled pending time next late => exact (onward_settle host).trans (.of_runs rfl)

/-! ## Runs -/

/-- A run that begins leaves the runs in the background in their places. -/
theorem runs_begin (host : Host) (engine : Nat) (workflow execution : String) (trigger : Value) :
    (host.begin engine workflow execution trigger).1.runs = host.runs := by
  unfold begin
  split <;> rfl

/-- A run that is started stands in the background under its number. -/
theorem start_onward (host : Host) (engine : Nat) (workflow execution : String)
    (trigger : Value) :
    ∃ task, (host.start engine workflow execution trigger).2.runs[
        (host.start engine workflow execution trigger).1]? = some task ∧
      (host.begin engine workflow execution trigger).2.Onward task := by
  have number : (host.start engine workflow execution trigger).1 = host.runs.length :=
    congrArg List.length (runs_begin ..)
  rw [number]
  refine onward_settle _ _ _ ?_
  rw [← runs_begin host engine workflow execution trigger]
  exact List.getElem?_concat_length

/-- The result that is taken of a run is the one with which it has ended. -/
theorem take_eq_finished {host : Host} {number : Nat} {result : Except EngineError Report}
    (taken : (host.take number).1 = .finished result) :
    host.runs[number]? = some (.ended result) := by
  unfold take at taken
  split at taken
  · obtain rfl := RunAnswer.finished.inj taken
    assumption
  · cases taken
  · cases taken

/-- The result of a run for which somebody waits is one to which its task has come. -/
theorem join_eq_finished {host : Host} {number : Nat} {result : Except EngineError Report}
    (finished : (host.join number).1 = .finished result) :
    ∃ later, host.Onward later ∧ later.runs[number]? = some (.ended result) := by
  have waited := onward_waitUntil (patience + host.now) (isOver number) host
  rw [join, await] at finished
  cases after : host.waitUntil (patience + host.now) (isOver number) with
  | mk later ended =>
    rw [after] at finished waited
    cases ended with
    | false => cases finished
    | true => exact ⟨later, waited, take_eq_finished finished⟩

/-- The result of a run that is executed is one to which its task has come. -/
theorem executeWithId_onward {host : Host} {engine : Nat} {workflow execution : String}
    {trigger : Value} {result : Except EngineError Report}
    (finished : (host.executeWithId engine workflow execution trigger).1 = .finished result) :
    (host.begin engine workflow execution trigger).2.Onward (.ended result) := by
  obtain ⟨task, found, onward⟩ := start_onward host engine workflow execution trigger
  obtain ⟨later, waited, foundLater⟩ := join_eq_finished finished
  obtain ⟨further, foundFurther, toFurther⟩ := waited _ task found
  obtain rfl := Option.some.inj (foundLater.symm.trans foundFurther)
  exact onward.trans toFurther

/-- A workflow that is not registered is refused at once. -/
theorem executeWithId_unknown {host : Host} {workflow : String}
    (unknown : host.library.find? workflow = none) (engine : Nat) (execution : String)
    (trigger : Value) : (host.executeWithId engine workflow execution trigger).1 =
      .finished (.error (.workflowNotFound workflow)) := by
  obtain ⟨task, found, onward⟩ := start_onward host engine workflow execution trigger
  rw [begin, unknown] at onward
  obtain rfl := onward.of_ended
  unfold executeWithId join
  generalize host.start engine workflow execution trigger = started at found ⊢
  obtain ⟨number, later⟩ := started
  obtain ⟨further, foundFurther, toFurther⟩ := onward_settle later number _ found
  obtain rfl := toFurther.of_ended
  have ended : isOver number later.settle = true := by
    simp [isOver, foundFurther, Task.isOver]
  simp only [await]
  rw [waitUntil]
  simp [ended, take, foundFurther]

end Host

end Workflow
