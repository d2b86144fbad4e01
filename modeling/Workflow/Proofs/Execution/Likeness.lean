import Workflow.Proofs.Execution.Requests
import Workflow.Proofs.Execution.Twins

/-!
# Steps do the same in both environments

The process of a step without custom executors is alike to itself: it looks at a seat only to wait
for the decision about the request that it has made itself, in the execution of its context. So a
step does in an environment that it shares what it does in one of its own.
-/
namespace Workflow

variable {execution : String} {scope : List (Seat × Seat)}

namespace Process.Alike

/-- Processes that are alike are so behind a warning. -/
theorem warnSome {next next' : Process} (later : next.Alike execution scope next')
    (warning : Option Warning) :
    (Process.warnSome warning next).Alike execution scope (Process.warnSome warning next') := by
  cases warning with
  | none => exact later
  | some given => exact .warn given later

/-- Processes that are alike are so behind warnings. -/
theorem warnAll {next next' : Process} (later : next.Alike execution scope next')
    (warnings : List Warning) :
    (Process.warnAll warnings next).Alike execution scope (Process.warnAll warnings next') := by
  induction warnings with
  | nil => exact later
  | cons warning rest ih => exact .warn warning ih

/-- A process that only calls actions does the same in both environments. -/
theorem of_onlyCalls {process : Process} (calls : process.OnlyCalls) :
    process.Alike execution scope process := by
  induction calls with
  | settle outcome => exact .settle outcome
  | warn warning _ ih => exact .warn warning ih
  | lookUp action _ ih => exact .lookUp action ih
  | call registration input limit _ ih => exact .call registration input limit ih

/-! ## Humans -/

/-- What follows a decision is alike on both sides. -/
theorem afterDecision (step : Step) (input : Value) (decision : Option Decision) :
    (afterDecision step input decision).Alike execution scope
      (afterDecision step input decision) := by
  cases decision with
  | none => exact .settle _
  | some decision => exact (Alike.settle _).warnSome _

/-- A step that asks a human waits for its own request. -/
theorem askHuman {context : Context} (own : context.execution = execution) (step : Step)
    (input : Value) :
    (askHuman context step input).Alike execution scope (askHuman context step input) := by
  refine .review own fun pair => ?_
  have awaits : (awaitDecision step input pair.1).Alike execution (pair :: scope)
      (awaitDecision step input pair.2) :=
    .await List.mem_cons_self step.timeout (afterDecision step input)
  rw [onceSeated, onceSeated]
  cases step.action with
  | none => exact awaits
  | some action =>
    refine .lookUp action fun found => ?_
    cases found with
    | none => exact .settle _
    | some registration =>
      refine .call registration _ none fun callEnd => ?_
      rcases callEnd with (error | value) | _
      · exact .settle _
      · exact awaits
      · exact awaits

/-! ## Groups -/

/-- Batches whose members are alike are alike. -/
theorem runBatches (group : String) (collected : Collected) (cut : List (List (Step × Process)))
    (members : ∀ batch ∈ cut, ∀ member ∈ batch, member.2.Alike execution [] member.2) :
    (runBatches group collected cut).Alike execution scope (runBatches group collected cut) := by
  induction cut generalizing collected with
  | nil => exact .settle _
  | cons batch rest ih =>
    refine .together ?_ fun outcomes => ?_
    · rw [List.forall_mem_map]
      exact members batch List.mem_cons_self
    · exact (ih _ fun later inRest => members later (List.mem_cons_of_mem _ inRest)).warnAll _

/-- Groups whose members are alike are alike. -/
theorem runGroup (size : Nat) (group : Step) {processOf : Step → Process}
    (members : ∀ step ∈ group.steps, (processOf step).Alike execution [] (processOf step)) :
    (runGroup size group (group.steps.map fun step => (step, processOf step))).Alike execution scope
      (runGroup size group (group.steps.map fun step => (step, processOf step))) := by
  rw [Workflow.runGroup]
  split
  · exact .settle _
  · refine runBatches group.name .nothing _ fun batch cut member inside => ?_
    have known := (sublist_of_mem_batches size _ batch cut).subset inside
    obtain ⟨step, inGroup, rfl⟩ := List.mem_map.mp known
    exact members step inGroup

end Process.Alike

/-! ## Steps -/

/-- A step whose inner steps are alike on both sides is performed alike there. -/
theorem perform_alike {setup : Setup} (custom : setup.custom = []) {context : Context}
    (own : context.execution = execution) (step : Step)
    (members : ∀ member ∈ step.steps,
      (member.process setup context).Alike execution [] (member.process setup context)) :
    (perform setup context step (processesOf setup context step.steps)).Alike execution scope
      (perform setup context step (processesOf setup context step.steps)) := by
  rw [perform, processesOf_eq]
  refine .warnSome ?_ _
  split
  case isFalse => exact .settle _
  rw [execute_of_plain custom]
  cases step.kind with
  | action => exact .of_onlyCalls (.callAction _ context step _)
  | parallel => exact .runGroup _ step members
  | humanInLoop => exact .askHuman own step _

mutual

/-- A step does the same in both environments. -/
theorem Step.process_alike {setup : Setup} (custom : setup.custom = []) {context : Context}
    (own : context.execution = execution) (step : Step) :
    (step.process setup context).Alike execution [] (step.process setup context) := by
  obtain ⟨name, kind, action, input, output, condition, timeout, fallback, loopOver, steps⟩ := step
  rw [Step.process]
  exact perform_alike custom own _ (members_alike custom own steps)

/-- The steps inside a step are alike on both sides. -/
theorem members_alike {setup : Setup} (custom : setup.custom = []) {context : Context}
    (own : context.execution = execution) (steps : List Step) :
    ∀ member ∈ steps,
      (member.process setup context).Alike execution [] (member.process setup context) := by
  cases steps with
  | nil => simp
  | cons step rest =>
    exact List.forall_mem_cons.mpr
      ⟨Step.process_alike custom own step, members_alike custom own rest⟩

end

end Workflow
