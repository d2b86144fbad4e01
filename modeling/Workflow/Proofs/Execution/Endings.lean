import Workflow.Proofs.Execution.Obedience
import Workflow.Proofs.Execution.Writes

/-!
# How steps end

A process is started in some environment and goes on in others; between its turns anything may
happen. `Process.ComesTo` says what it has come to then. For processes that wait for others this is
taken apart: a group has ended only when each step inside it has ended on its own, in the context of
the group.

`Step.Ends` says so for a step at every depth: by which context its condition is judged and its
input resolved, what is executed with that input, and what a group makes of the steps inside it.
-/
namespace Workflow

/-- What a process comes to by turns in any environments. -/
inductive Process.ComesTo (process : Process) : Activity → Prop where
  | start (environment : Environment) : ComesTo process (process.start environment).2
  | resume {activity : Activity} (earlier : ComesTo process activity)
      (environment : Environment) : ComesTo process (activity.resume environment).2

namespace Process.ComesTo

variable {process next : Process} {activity : Activity} {outcome : Outcome}

/-- A settled process comes to its outcome at once. -/
theorem of_settle (comes : (Process.settle outcome).ComesTo activity) :
    activity = .ended outcome := by
  induction comes with
  | start => rfl
  | resume _ _ ih => rw [ih, Activity.resume]

/-- A warning does not change what follows it. -/
theorem of_warn {warning : Warning} (comes : (Process.warn warning next).ComesTo activity) :
    next.ComesTo activity := by
  induction comes with
  | start environment =>
    rw [Process.start]
    exact .start _
  | resume _ environment ih => exact ih.resume environment

/-- What a process comes to after a warning is what it comes to. -/
theorem of_warnSome {warning : Option Warning}
    (comes : (Process.warnSome warning next).ComesTo activity) : next.ComesTo activity := by
  cases warning with
  | none => exact comes
  | some warning => exact of_warn comes

/-- What a process comes to after warnings is what it comes to. -/
theorem of_warnAll {warnings : List Warning}
    (comes : (Process.warnAll warnings next).ComesTo activity) : next.ComesTo activity := by
  induction warnings with
  | nil => exact comes
  | cons warning rest ih => exact ih (of_warn comes)

/-- What obeys rules ends as they allow. -/
theorem obeys {rules : Rules} (comes : process.ComesTo activity) (obeys : process.Obeys rules)
    (free : ∀ action, ¬rules.registered action) : activity.Obeys rules := by
  have keeps := Rules.keeps_true free
  induction comes with
  | start environment => exact (obeys.start keeps environment [] trivial).1
  | resume _ environment ih => exact (ih.resume keeps environment [] trivial).1

/-! ## Members -/

/-- When members are started each of them comes to something. -/
theorem startAll (environment : Environment) (members : List Process) :
    List.Forall₂ ComesTo members (startAll environment members).2 := by
  induction members generalizing environment with
  | nil => exact .nil
  | cons member rest ih => exact .cons (.start environment) (ih _)

/-- When members go on each of them still is what its process comes to. -/
theorem resumeAll {members : List Process} {activities : List Activity}
    (each : List.Forall₂ ComesTo members activities) (environment : Environment) :
    List.Forall₂ ComesTo members (Activity.resumeAll environment activities).2 := by
  induction each generalizing environment with
  | nil => exact .nil
  | cons first _ ih => exact .cons (first.resume environment) (ih _)

/-- Members of which each has come to something go on side by side, or all have ended and what
follows them starts. -/
theorem join {members : List Process} {activities : List Activity}
    (each : List.Forall₂ ComesTo members activities) (next : List Outcome → Process)
    (environment : Environment) {joined : Environment × Activity}
    (joins : joined = match Activity.outcomes? activities with
      | some outcomes => (next outcomes).start environment
      | none => (environment, .together activities next)) :
    (∃ activities, joined.2 = .together activities next ∧
      List.Forall₂ ComesTo members activities) ∨
    ∃ outcomes, List.Forall₂ (fun member outcome => member.ComesTo (.ended outcome))
      members outcomes ∧ (next outcomes).ComesTo joined.2 := by
  subst joins
  cases all : Activity.outcomes? activities with
  | none => exact .inl ⟨activities, rfl, each⟩
  | some outcomes =>
    obtain rfl := Activity.outcomes?_eq_some.mp all
    exact .inr ⟨outcomes, List.forall₂_map_right_iff.mp each, .start environment⟩

/-- Processes that run side by side each come to something; when all have ended, what follows them
comes to something. -/
theorem of_together {members : List Process} {next : List Outcome → Process}
    (comes : (Process.together members next).ComesTo activity) :
    (∃ activities, activity = .together activities next ∧
      List.Forall₂ ComesTo members activities) ∨
    ∃ outcomes, List.Forall₂ (fun member outcome => member.ComesTo (.ended outcome))
      members outcomes ∧ (next outcomes).ComesTo activity := by
  induction comes with
  | start environment =>
    exact ComesTo.join (ComesTo.startAll environment members) next _ (Process.start.eq_def ..)
  | resume _ environment ih =>
    rcases ih with ⟨activities, rfl, each⟩ | ⟨outcomes, each, later⟩
    · exact ComesTo.join (ComesTo.resumeAll each environment) next _ (Activity.resume.eq_def ..)
    · exact .inr ⟨outcomes, each, later.resume environment⟩

/-! ## Groups -/

/-- Batches of steps end when each step has ended, with what all of them together gave. -/
theorem of_runBatches {group : String} {collected : Collected}
    {cut : List (List (Step × Process))}
    (comes : (runBatches group collected cut).ComesTo (.ended outcome)) :
    ∃ outcomes, List.Forall₂ (fun member outcome => member.2.ComesTo (.ended outcome))
        cut.flatten outcomes ∧
      outcome = .ok (some (collected.addAll ((cut.flatten.map Prod.fst).zip outcomes)).output) := by
  induction cut generalizing collected with
  | nil => exact ⟨[], .nil, Activity.ended.inj (of_settle comes)⟩
  | cons batch rest ih =>
    rcases of_together comes with ⟨_, impossible, -⟩ | ⟨first, each, later⟩
    · cases impossible
    · obtain ⟨others, eachLater, rfl⟩ := ih (of_warnAll later)
      have eachFirst := List.forall₂_map_left_iff.mp each
      have length : (batch.map Prod.fst).length = first.length := by
        rw [List.length_map, eachFirst.length_eq]
      refine ⟨first ++ others, List.rel_append eachFirst eachLater, ?_⟩
      rw [← Collected.addAll_append, List.flatten_cons, List.map_append, List.zip_append length]

/-- A group with steps ends when each of them has ended. -/
theorem of_runGroup {size : Nat} {group : Step} {members : List (Step × Process)}
    (inhabited : members ≠ []) (comes : (runGroup size group members).ComesTo (.ended outcome)) :
    ∃ outcomes, List.Forall₂ (fun member outcome => member.2.ComesTo (.ended outcome))
        members outcomes ∧
      outcome = .ok (some (groupOutput ((members.map Prod.fst).zip outcomes))) := by
  rw [runGroup, if_neg (by simpa using inhabited)] at comes
  obtain ⟨outcomes, each, rfl⟩ := of_runBatches comes
  rw [flatten_batches] at each ⊢
  exact ⟨outcomes, each, by rw [Collected.output_addAll]⟩

end Process.ComesTo

/-! ## Steps -/

/-- How a step ends in a context when its engine has no custom executors. -/
inductive Step.Ends (setup : Setup) (context : Context) : Step → Outcome → Prop where
  /-- Its condition does not hold in the context. -/
  | skipped {step : Step}
      (idle : (Condition.evaluate step.condition context).holds = false) :
      Ends setup context step (.ok none)
  /-- It was executed with its input resolved in the context. It failed or gave a value, and exports
  nothing. -/
  | single {step : Step} {outcome : Outcome}
      (runs : (Condition.evaluate step.condition context).holds = true)
      (kind : step.kind ≠ .parallel)
      (comes : (execute setup context step (step.resolvedInput context)
        (processesOf setup context step.steps)).ComesTo (.ended outcome))
      (plain : ∀ given, outcome = .ok given → ∃ value, given = some (.ofValue value)) :
      Ends setup context step outcome
  /-- It is a group, and each step inside it has ended in the same context. -/
  | group {step : Step} {outcomes : List Outcome}
      (runs : (Condition.evaluate step.condition context).holds = true)
      (kind : step.kind = .parallel) (inhabited : step.steps ≠ [])
      (members : List.Forall₂ (Ends setup context) step.steps outcomes) :
      Ends setup context step (.ok (some (groupOutput (step.steps.zip outcomes))))
  /-- It is a group without steps. -/
  | empty {step : Step}
      (runs : (Condition.evaluate step.condition context).holds = true)
      (kind : step.kind = .parallel) (none : step.steps = []) :
      Ends setup context step (.error (.noSubSteps step.name))

/-- Rules under which nothing is forbidden but exports and giving nothing. -/
def Rules.plain : Rules where
  registered _ := False
  asks _ := True
  tolerates _ := True
  allows outcome := ∀ given, outcome = .ok given → ∃ value, given = some (.ofValue value)
  replaces _ _ := trivial

/-- Single steps of any execution can run under the plain rules. -/
theorem Rules.plain_lenient (execution : String) : Rules.plain.Lenient execution where
  asks _ := trivial
  warnings _ _ := trivial
  values value given same := by
    cases same
    exact ⟨value, rfl⟩
  failures error _ given same := nomatch same

/-- The plain rules allow every error that follows from what a step lacks. -/
theorem Step.permitted_plain (step : Step) : step.Permitted Rules.plain :=
  ⟨fun _ _ _ same => (nomatch same), fun _ _ => .inr fun _ same => (nomatch same),
    fun _ _ _ same => (nomatch same)⟩

/-- What a step gives that is no group. -/
theorem Process.ComesTo.plain {setup : Setup} (custom : setup.custom = []) {context : Context}
    {step : Step} {input : Value} {members : List (Step × Process)} {outcome : Outcome}
    (kind : step.kind ≠ .parallel)
    (comes : (execute setup context step input members).ComesTo (.ended outcome)) :
    ∀ given, outcome = .ok given → ∃ value, given = some (.ofValue value) := by
  have lenient := Rules.plain_lenient context.execution
  have conduct : (execute setup context step input members).Obeys Rules.plain := by
    rw [execute_of_plain custom]
    cases same : step.kind with
    | action => exact .callAction lenient _ context step.permitted_plain same input
    | parallel => exact absurd same kind
    | humanInLoop => exact .askHuman context lenient step.permitted_plain input
  cases comes.obeys conduct fun _ impossible => impossible with
  | ended allowed => exact allowed

/-- A step ends as it should if the steps inside it do. -/
theorem Process.ComesTo.of_perform {setup : Setup} (custom : setup.custom = [])
    {context : Context} {step : Step} {outcome : Outcome}
    (members : ∀ {outcomes : List Outcome},
      List.Forall₂ (fun member outcome => member.2.ComesTo (.ended outcome))
        (processesOf setup context step.steps) outcomes →
      List.Forall₂ (Step.Ends setup context) step.steps outcomes)
    (comes : (perform setup context step (processesOf setup context step.steps)).ComesTo
      (.ended outcome)) : step.Ends setup context outcome := by
  rw [perform] at comes
  replace comes := of_warnSome comes
  split at comes
  next runs =>
    by_cases kind : step.kind = .parallel
    · simp only [execute_of_plain custom, kind] at comes
      by_cases none : step.steps = []
      · simp only [none, processesOf, runGroup, List.isEmpty_nil, if_true] at comes
        cases of_settle comes
        exact .empty runs kind none
      · have inhabited : processesOf setup context step.steps ≠ [] := by
          simpa [processesOf_eq] using none
        obtain ⟨outcomes, each, rfl⟩ := of_runGroup inhabited comes
        have names : (processesOf setup context step.steps).map Prod.fst = step.steps := by
          rw [processesOf_eq, List.map_map]
          exact List.map_id step.steps
        rw [names]
        exact .group runs kind none (members each)
    · exact .single runs kind comes (comes.plain custom kind)
  next idle =>
    cases of_settle comes
    exact .skipped (by simpa using idle)

mutual

/-- What the process of a step comes to is how the step ends. -/
theorem Step.ends_of_comesTo {setup : Setup} (custom : setup.custom = []) {context : Context}
    (step : Step) {outcome : Outcome}
    (comes : (step.process setup context).ComesTo (.ended outcome)) :
    step.Ends setup context outcome := by
  obtain ⟨name, kind, action, input, output, condition, timeout, fallback, loopOver, steps⟩ := step
  rw [Step.process] at comes
  exact comes.of_perform custom (members_end custom steps)

/-- The members of a group end as the steps do whose processes they are. -/
theorem members_end {setup : Setup} (custom : setup.custom = []) {context : Context}
    (steps : List Step) {outcomes : List Outcome}
    (each : List.Forall₂ (fun member outcome => member.2.ComesTo (.ended outcome))
      (processesOf setup context steps) outcomes) :
    List.Forall₂ (Step.Ends setup context) steps outcomes := by
  cases steps with
  | nil =>
    cases each
    exact .nil
  | cons step rest =>
    rw [processesOf] at each
    cases each with
    | cons first later =>
      exact .cons (Step.ends_of_comesTo custom step first) (members_end custom rest later)

end

end Workflow
