import Workflow.Proofs.Execution.Requests
import Workflow.Proofs.Execution.Rules

/-!
# The rules that steps obey

A step obeys rules that are lenient: it asks humans in its own execution only, gives only the
warnings of its kind, and ends with a value, with a failure at run time, or skipped. What it cannot
do without is said by `Step.Permitted`: a step that calls an action names one, an action that is
named is registered, and a group has steps. Each of these may be missing only if the rules allow the
error that follows. Of custom executors nothing is known but what `Setup.Obeys` asks of them.
-/
namespace Workflow

/-- The error says that a step lacks something it cannot run without, and not that something failed
while it ran. -/
def StepError.isDefect : StepError → Bool
  | .missingAction _ | .unknownAction _ | .noSubSteps _ | .noExecutor _ => true
  | _ => false

/-- Rules under which single steps of an execution can run. -/
structure Rules.Lenient (rules : Rules) (execution : String) : Prop where
  asks : ∀ step, rules.asks ⟨execution, step⟩
  /-- Only warnings about failed steps of a group may be forbidden. -/
  warnings : ∀ warning, (∀ group step error, warning ≠ .subStepFailed group step error) →
    rules.tolerates warning
  values : ∀ value, rules.allows (.ofValue value)
  failures : ∀ error, error.isDefect = false → rules.allows (.error error)

/-- Rules under which groups of steps can run as well. -/
structure Rules.Liberal (rules : Rules) (execution : String) : Prop
    extends rules.Lenient execution where
  skipped : rules.allows (.ok none)
  outputs : ∀ output, rules.allows (.ok (some output))
  /-- Of a failure that is allowed a group may warn. -/
  subSteps : ∀ group step error, rules.allows (.error error) →
    rules.tolerates (.subStepFailed group step error)

/-- A step lacks nothing, unless the rules allow the error that follows. -/
structure Step.Permitted (rules : Rules) (step : Step) : Prop where
  missing : step.kind = .action → step.action = none →
    rules.allows (.error (.missingAction step.name))
  unknown : ∀ action, step.action = some action →
    rules.registered action ∨ rules.allows (.error (.unknownAction action))
  empty : step.kind = .parallel → step.steps = [] →
    rules.allows (.error (.noSubSteps step.name))

variable {rules : Rules} {execution : String}

namespace Process.Obeys

variable {next : Process}

/-- A warning that is tolerated may come before a process that obeys. -/
theorem warnSome {warning : Option Warning}
    (tolerated : ∀ given, warning = some given → rules.tolerates given)
    (later : next.Obeys rules) : (Process.warnSome warning next).Obeys rules := by
  cases warning with
  | none => exact later
  | some given => exact .warn (tolerated given rfl) later

/-- Warnings that are tolerated may come before a process that obeys. -/
theorem warnAll {warnings : List Warning}
    (tolerated : ∀ warning ∈ warnings, rules.tolerates warning)
    (later : next.Obeys rules) : (Process.warnAll warnings next).Obeys rules := by
  induction warnings with
  | nil => exact later
  | cons warning rest ih =>
    have first := tolerated warning List.mem_cons_self
    exact .warn first (ih fun other inRest => tolerated other (List.mem_cons_of_mem _ inRest))

/-! ## Actions -/

/-- A call obeys if what follows each of its results does. -/
theorem callOnce (lenient : rules.Lenient execution) (step : Step) (action : String)
    (registration : Registration) (limit : Option Nat) (input : Value)
    {next : CallResult → Process} (values : ∀ value, (next (.ok value)).Obeys rules)
    (failures : ∀ error, error.isDefect = false → (next (.error error)).Obeys rules) :
    (callOnce step action registration limit input next).Obeys rules := by
  refine .call registration input limit fun callEnd => ?_
  rcases callEnd with (error | value) | _
  · exact failures _ rfl
  · exact values value
  · dsimp only
    simp only [cutResult]
    rcases step.fallback with _ | _ | fixed
    · exact failures _ rfl
    · exact .warn (lenient.warnings _ (by simp)) (values _)
    · exact .warn (lenient.warnings _ (by simp)) (values fixed)

/-- The calls for each of the items obey lenient rules. -/
theorem callForEach (lenient : rules.Lenient execution) (step : Step) (action : String)
    (registration : Registration) (limit : Option Nat) (context : Context)
    (reversed items : List Value) :
    (callForEach step action registration limit context reversed items).Obeys rules := by
  induction items generalizing reversed with
  | nil => exact .settle (lenient.values _)
  | cons item rest ih =>
    exact callOnce lenient step action registration limit _ (fun value => ih (value :: reversed))
      fun error common => .settle (lenient.failures error common)

/-- An action that is looked up is found, unless the rules allow the error that follows. -/
theorem lookUpKnown {action : String} {next : Option Registration → Process}
    (known : rules.registered action ∨ rules.allows (.error (.unknownAction action)))
    (missing : next none = .settle (.error (.unknownAction action)))
    (later : ∀ registration, (next (some registration)).Obeys rules) :
    (Process.lookUp action next).Obeys rules := by
  refine .lookUp fun found reliable => ?_
  cases found with
  | some registration => exact later registration
  | none =>
    rw [missing]
    rcases known with registered | allowed
    · exact absurd (reliable registered) (by simp)
    · exact .settle allowed

/-- A step that calls an action obeys lenient rules which permit it. -/
theorem callAction (lenient : rules.Lenient execution) (usualLimit : Option Nat)
    (context : Context) {step : Step} (permitted : step.Permitted rules)
    (kind : step.kind = .action) (input : Value) :
    (callAction usualLimit context step input).Obeys rules := by
  rw [Workflow.callAction]
  cases named : step.action with
  | none => exact .settle (permitted.missing kind named)
  | some action =>
    refine lookUpKnown (permitted.unknown action named) rfl fun registration => ?_
    cases step.loopOver with
    | none =>
      exact callOnce lenient step action registration _ input
        (fun value => .settle (lenient.values value))
        fun error common => .settle (lenient.failures error common)
    | some expression =>
      dsimp only
      cases listed : iterated step expression context with
      | ok items => exact callForEach lenient step action registration _ context [] items
      | error error =>
        refine .settle (lenient.failures error ?_)
        rw [iterated] at listed
        split at listed <;> cases listed
        rfl

/-! ## Humans -/

/-- What follows a decision obeys lenient rules. -/
theorem afterDecision (lenient : rules.Lenient execution) (step : Step) (input : Value)
    (decision : Option Decision) : (afterDecision step input decision).Obeys rules := by
  cases decision with
  | none => exact .settle (lenient.failures _ rfl)
  | some decision =>
    rw [Workflow.afterDecision]
    cases decision with
    | approve => exact .settle (lenient.values _)
    | modify data => exact .settle (lenient.values _)
    | reject reason => exact .settle (lenient.failures _ rfl)
    | timeout =>
      simp only [decided, unanswered]
      rcases step.fallback with _ | _ | fixed
      · exact .settle (lenient.failures _ rfl)
      · exact .warn (lenient.warnings _ (by simp)) (.settle (lenient.values _))
      · exact .settle (lenient.failures _ rfl)

/-- A step that asks a human obeys lenient rules of its execution which permit it. -/
theorem askHuman (context : Context) (lenient : rules.Lenient context.execution) {step : Step}
    (permitted : step.Permitted rules) (input : Value) :
    (askHuman context step input).Obeys rules := by
  refine .review (lenient.asks step.name) fun seat own => ?_
  have awaits : (awaitDecision step input seat).Obeys rules :=
    .await step.timeout (own ▸ lenient.asks step.name) (afterDecision lenient step input)
  rw [onceSeated]
  split
  next => exact awaits
  next action named =>
    refine lookUpKnown (permitted.unknown action named) rfl fun registration => ?_
    refine .call registration _ none fun callEnd => ?_
    rcases callEnd with (error | value) | _
    · exact .settle (lenient.failures _ rfl)
    · exact awaits
    · exact awaits

/-! ## Groups -/

/-- Batches whose members obey liberal rules obey them. -/
theorem runBatches (liberal : rules.Liberal execution) (group : String) (collected : Collected)
    (cut : List (List (Step × Process)))
    (members : ∀ batch ∈ cut, ∀ member ∈ batch, member.2.Obeys rules) :
    (runBatches group collected cut).Obeys rules := by
  induction cut generalizing collected with
  | nil => exact .settle (liberal.outputs _)
  | cons batch rest ih =>
    refine .together ?_ fun outcomes allowed => ?_
    · rw [List.forall_mem_map]
      exact members batch List.mem_cons_self
    · refine warnAll ?_ (ih _ fun later inRest => members later (List.mem_cons_of_mem _ inRest))
      intro warning given
      obtain ⟨⟨step, outcome⟩, handled, warned⟩ := List.mem_filterMap.mp given
      cases outcome with
      | ok output => cases warned
      | error error =>
        cases warned
        exact liberal.subSteps _ _ _ (allowed _ (List.of_mem_zip handled).2)

/-- A group whose members obey liberal rules obeys them if it is permitted. -/
theorem runGroup (liberal : rules.Liberal execution) (size : Nat) {group : Step}
    (permitted : group.Permitted rules) (kind : group.kind = .parallel)
    {processOf : Step → Process} (members : ∀ step ∈ group.steps, (processOf step).Obeys rules) :
    (runGroup size group (group.steps.map fun step => (step, processOf step))).Obeys rules := by
  rw [Workflow.runGroup]
  split
  next none =>
    rw [List.isEmpty_iff, List.map_eq_nil_iff] at none
    exact .settle (permitted.empty kind none)
  next =>
    refine runBatches liberal group.name .nothing _ fun batch cut member inside => ?_
    have known := (sublist_of_mem_batches size _ batch cut).subset inside
    obtain ⟨step, inGroup, rfl⟩ := List.mem_map.mp known
    exact members step inGroup

end Process.Obeys

/-! ## Steps -/

/-- The custom executors of an engine obey rules in a context if the steps inside theirs do. -/
def Setup.Obeys (setup : Setup) (rules : Rules) (context : Context) : Prop :=
  ∀ executor ∈ setup.custom, ∀ (step : Step) (input : Value) (members : List (Step × Process)),
    (∀ member ∈ members, member.2.Obeys rules) →
      (executor.process context step input members).Obeys rules

/-- Without custom executors nothing can break rules. -/
theorem Setup.obeys_of_plain {setup : Setup} (custom : setup.custom = []) (rules : Rules)
    (context : Context) : setup.Obeys rules context := by
  simp [Setup.Obeys, custom]

/-- A step obeys the rules if the steps inside it do and it lacks nothing itself. -/
theorem perform_obeys {setup : Setup} {context : Context} (conduct : setup.Obeys rules context)
    (liberal : rules.Liberal context.execution) {step : Step} (permitted : step.Permitted rules)
    (members : ∀ member ∈ step.steps, (member.process setup context).Obeys rules) :
    (perform setup context step (processesOf setup context step.steps)).Obeys rules := by
  rw [perform, processesOf_eq]
  refine .warnSome (fun given same => liberal.warnings given ?_) ?_
  · obtain ⟨cause, -, rfl⟩ := Option.map_eq_some_iff.mp same
    simp
  split
  case isFalse => exact .settle liberal.skipped
  cases found : setup.custom.find? (·.supports step) with
  | some executor =>
    rw [execute_of_supported found]
    refine conduct executor (List.mem_of_find?_eq_some found) step _ _ fun entry known => ?_
    obtain ⟨member, inside, rfl⟩ := List.mem_map.mp known
    exact members member inside
  | none =>
    rw [execute_of_unsupported found]
    cases kind : step.kind with
    | action => exact .callAction liberal.toLenient _ context permitted kind _
    | parallel => exact .runGroup liberal _ permitted kind members
    | humanInLoop => exact .askHuman context liberal.toLenient permitted _

mutual

/-- A step obeys the rules if at every depth inside it nothing is lacking. -/
theorem Step.process_obeys {setup : Setup} {context : Context}
    (conduct : setup.Obeys rules context)
    (liberal : rules.Liberal context.execution) (step : Step)
    (permitted : ∀ inner ∈ step.descendants, inner.Permitted rules) :
    (step.process setup context).Obeys rules := by
  obtain ⟨name, kind, action, input, output, condition, timeout, fallback, loopOver, steps⟩ := step
  rw [Step.process]
  refine perform_obeys conduct liberal (permitted _ (Step.mem_descendants_self _)) ?_
  refine members_obey conduct liberal steps fun inner deeper => permitted inner ?_
  rw [Step.descendants_eq]
  exact List.mem_cons_of_mem _ deeper

/-- The steps inside a step obey the rules that permit them. -/
theorem members_obey {setup : Setup} {context : Context} (conduct : setup.Obeys rules context)
    (liberal : rules.Liberal context.execution) (steps : List Step)
    (permitted : ∀ inner ∈ descendantsOf steps, inner.Permitted rules) :
    ∀ member ∈ steps, (member.process setup context).Obeys rules := by
  cases steps with
  | nil => simp
  | cons step rest =>
    rw [descendantsOf] at permitted
    have first := Step.process_obeys conduct liberal step fun inner deeper =>
      permitted inner (List.mem_append_left _ deeper)
    have others := members_obey conduct liberal rest fun inner deeper =>
      permitted inner (List.mem_append_right _ deeper)
    exact List.forall_mem_cons.mpr ⟨first, others⟩

end

end Workflow
