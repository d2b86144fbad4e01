import Workflow.Execution.Steps

/-!
# Which executor executes a step

The executors are asked one after another whether they support a step. Every engine has an executor
for each kind of steps, so the search always comes to one, and a step that no custom executor
supports is executed by its kind.
-/
namespace Workflow

variable {setup : Setup} {step : Step}

/-- Every step is supported by an executor that every engine has. -/
theorem Setup.exists_builtIn (setup : Setup) (step : Step) :
    ∃ executor ∈ setup.builtIn, executor.supports step := by
  cases kind : step.kind with
  | action => exact ⟨.action setup.usualLimit, by simp [builtIn], by simp [Executor.action, kind]⟩
  | parallel =>
    exact ⟨.parallel setup.maxParallelSteps, by simp [builtIn], by simp [Executor.parallel, kind]⟩
  | humanInLoop => exact ⟨.human, by simp [builtIn], by simp [Executor.human, kind]⟩

/-- The search for an executor always comes to one. -/
theorem Setup.find?_executors_isSome (setup : Setup) (step : Step) :
    (setup.executors.find? (·.supports step)).isSome := by
  obtain ⟨executor, among, supports⟩ := setup.exists_builtIn step
  exact List.find?_isSome.mpr ⟨executor, List.mem_append_right _ among, supports⟩

/-- A custom executor that supports a step is found before those that every engine has. -/
theorem execute_of_supported {executor : CustomExecutor}
    (found : setup.custom.find? (·.supports step) = some executor) (context : Context)
    (input : Value) (members : List (Step × Process)) :
    execute setup context step input members = executor.process context step input members := by
  rw [execute, Setup.executors, List.find?_append, found]
  rfl

/-- A step that no custom executor supports is executed by its kind. -/
theorem execute_of_unsupported (missing : setup.custom.find? (·.supports step) = none)
    (context : Context) (input : Value) (members : List (Step × Process)) :
    execute setup context step input members = match step.kind with
      | .action => callAction setup.usualLimit context step input
      | .parallel => runGroup setup.maxParallelSteps step members
      | .humanInLoop => askHuman context step input := by
  rw [execute, Setup.executors, List.find?_append, missing, Option.none_or]
  cases kind : step.kind <;>
    simp [Setup.builtIn, Executor.action, Executor.parallel, Executor.human, kind]

/-- Without custom executors every step is executed by its kind. -/
theorem execute_of_plain (plain : setup.custom = []) (context : Context) (step : Step)
    (input : Value) (members : List (Step × Process)) :
    execute setup context step input members = match step.kind with
      | .action => callAction setup.usualLimit context step input
      | .parallel => runGroup setup.maxParallelSteps step members
      | .humanInLoop => askHuman context step input :=
  execute_of_unsupported (by rw [plain, List.find?_nil]) context input members

end Workflow
