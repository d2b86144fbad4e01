import Workflow.Execution.Custom
import Workflow.Proofs.Expression.Mentions
import Workflow.Proofs.Run.Enclosure

/-!
# Variables that a step does not mention

A step reads its context through the operands of its condition, the texts of its input and its loop
(`Step.Reads`), and so do the steps inside it. Contexts of one run that agree on the variables that
these mention cannot be told apart by the step: it makes the same calls and requests in both, in
every world, and comes to the same end (`Step.unmentioned_variables_unseen`). The element of a loop
is bound in both contexts alike, so an input that mentions it gives the same in each iteration.

What a custom executor reads of a context is not written in the step, so it has to be indifferent to
what the contexts do not share.
-/
namespace Workflow

/-! ## What a step mentions -/

/-- A text that a step itself, without the steps inside it, reads in its context. -/
inductive Step.Reads (step : Step) : List Char → Prop where
  | condition {text : String} {token : List Char} (given : step.condition = some text)
      (operand : Condition.IsOperand (Text.trim text.toList) token) : Reads step token
  | input {value : Value} {text : String} (given : step.input = some value)
      (inside : text ∈ value.texts) : Reads step text.toList
  | loop {text : String} (given : step.loopOver = some text) : Reads step text.toList

/-- A step or a step inside it, at any depth, reads a text that mentions a variable. -/
def Step.Mentions (step : Step) (name : String) : Prop :=
  ∃ inner ∈ step.descendants, ∃ text, inner.Reads text ∧ Text.Mentions text name

/-! ### Finding what is mentioned -/

/-- The texts that a step itself reads in its context. -/
def Step.texts (step : Step) : List (List Char) :=
  step.condition.toList.flatMap (fun text => Condition.operands (Text.trim text.toList)) ++
    (step.input.toList.flatMap Value.texts ++ step.loopOver.toList).map String.toList

/-- The texts of a step are those that it reads. -/
theorem Step.mem_texts_iff (step : Step) (text : List Char) :
    text ∈ step.texts ↔ step.Reads text := by
  rw [texts, List.mem_append]
  constructor
  · rintro (operand | given)
    · obtain ⟨condition, given, operand⟩ := List.mem_flatMap.mp operand
      exact .condition (Option.mem_toList.mp given) ((Condition.mem_operands_iff _ _).mp operand)
    · obtain ⟨written, listed, rfl⟩ := List.mem_map.mp given
      rcases List.mem_append.mp listed with inside | loop
      · obtain ⟨value, given, inside⟩ := List.mem_flatMap.mp inside
        exact .input (Option.mem_toList.mp given) inside
      · exact .loop (Option.mem_toList.mp loop)
  · intro reads
    cases reads with
    | @condition condition token given operand =>
      left
      apply List.mem_flatMap.mpr
      exact ⟨condition, Option.mem_toList.mpr given, (Condition.mem_operands_iff _ _).mpr operand⟩
    | @input value text given inside =>
      right
      apply List.mem_map_of_mem
      apply List.mem_append_left
      exact List.mem_flatMap.mpr ⟨value, Option.mem_toList.mpr given, inside⟩
    | loop given =>
      right
      apply List.mem_map_of_mem
      apply List.mem_append_right
      exact Option.mem_toList.mpr given

/-- The variables that a step and the steps inside it mention. -/
def Step.mentions (step : Step) : List String :=
  step.descendants.flatMap fun inner => inner.texts.filterMap Text.mentioned?

/-- The listed mentions of a step are the names that it mentions. -/
theorem Step.mem_mentions_iff (step : Step) (name : String) :
    name ∈ step.mentions ↔ step.Mentions name := by
  simp only [mentions, Mentions, List.mem_flatMap, List.mem_filterMap, mem_texts_iff,
    Text.mentioned?_eq_some_iff]

instance (step : Step) (name : String) : Decidable (step.Mentions name) :=
  decidable_of_iff _ (step.mem_mentions_iff name)

/-! ## Contexts that are not told apart -/

/-- Two contexts of one run that bind each variable that a step mentions to the same value, or both
to none. -/
structure Step.Alike (step : Step) (first second : Context) : Prop where
  workflow : first.workflow = second.workflow
  execution : first.execution = second.execution
  mentioned : ∀ name, step.Mentions name → first.get? name = second.get? name

/-- An executor does the same with a step in two contexts, whatever the input is and whatever the
steps inside it do. -/
def CustomExecutor.Indifferent (executor : CustomExecutor) (first second : Context) (step : Step) :
    Prop :=
  ∀ input members,
    executor.process first step input members = executor.process second step input members

/-- Two contexts of one run that a step by itself, without the steps inside it, does not tell
apart. -/
structure Step.Indifferent (setup : Setup) (first second : Context) (step : Step) : Prop where
  workflow : first.workflow = second.workflow
  execution : first.execution = second.execution
  texts : ∀ text, step.Reads text → first.AgreeOn second text
  custom : ∀ executor, setup.custom.find? (·.supports step) = some executor →
    executor.Indifferent first second step

variable {setup : Setup} {first second : Context} {step : Step}

/-- No step inside a step tells contexts apart that agree on what the step mentions. -/
theorem Step.Alike.indifferent (alike : step.Alike first second)
    (custom : ∀ inner ∈ step.descendants, ∀ executor,
      setup.custom.find? (·.supports inner) = some executor →
        executor.Indifferent first second inner) :
    ∀ inner ∈ step.descendants, inner.Indifferent setup first second := by
  intro inner inside
  refine ⟨alike.workflow, alike.execution, ?_, custom inner inside⟩
  intro text reads name mentions
  exact alike.mentioned name ⟨inner, inside, text, reads, mentions⟩

/-! ## What a step reads in its context -/

section

variable (agree : ∀ text, step.Reads text → first.AgreeOn second text)

include agree

/-- The condition of a step has the same verdict in both contexts. -/
theorem Step.verdict_congr :
    Condition.evaluate step.condition first = Condition.evaluate step.condition second := by
  apply Condition.evaluate_congr
  intro text given token operand
  exact agree token (.condition given operand)

/-- The input of a step is resolved alike in both contexts. -/
theorem Step.input_congr :
    step.input.map (resolveInput first) = step.input.map (resolveInput second) := by
  cases given : step.input with
  | none => rfl
  | some value =>
    apply congrArg some
    apply resolveInput_congr
    intro text inside
    exact agree text.toList (.input given inside)

/-- A step is given the same input in both contexts. -/
theorem Step.resolvedInput_congr : step.resolvedInput first = step.resolvedInput second := by
  rw [resolvedInput, resolvedInput, Step.input_congr agree]

/-- A step goes through the same items in both contexts. -/
theorem iterated_congr {expression : String} (given : step.loopOver = some expression) :
    iterated step expression first = iterated step expression second := by
  rw [iterated, iterated, resolve?_congr (agree expression.toList (.loop given))]

/-- A step has the same result in both contexts. -/
theorem result_congr (phase : Phase) (outcome : Outcome) :
    Progress.result first phase step outcome = Progress.result second phase step outcome := by
  simp only [Progress.result, Step.input_congr agree]

end

/-! ## What a step does -/

/-- The calls for each of the items are the same in both contexts. -/
theorem callForEach_congr
    (inputs : ∀ item, step.resolvedInput (first.bind itemName item) =
      step.resolvedInput (second.bind itemName item))
    (action : String) (registration : Registration) (limit : Option Nat)
    (reversed items : List Value) :
    callForEach step action registration limit first reversed items =
      callForEach step action registration limit second reversed items := by
  induction items generalizing reversed with
  | nil => rfl
  | cons item rest ih =>
    rw [callForEach, callForEach, inputs item]
    congr 1
    funext result
    cases result with
    | ok value => exact ih (value :: reversed)
    | error error => rfl

/-- The loop of a step sees the same list, and each element gives the same input. -/
theorem callAction_congr (agree : ∀ text, step.Reads text → first.AgreeOn second text)
    (usualLimit : Option Nat) (input : Value) :
    callAction usualLimit first step input = callAction usualLimit second step input := by
  have inputs : ∀ item, step.resolvedInput (first.bind itemName item) =
      step.resolvedInput (second.bind itemName item) := by
    intro item
    apply Step.resolvedInput_congr
    intro text reads
    exact (agree text reads).bind itemName item
  rw [callAction, callAction]
  cases step.action with
  | none => rfl
  | some action =>
    apply congrArg (Process.lookUp action)
    funext found
    cases found with
    | none => rfl
    | some registration =>
      cases looped : step.loopOver with
      | none => rfl
      | some expression =>
        simp only [iterated_congr agree looped]
        cases iterated step expression second with
        | error error => rfl
        | ok items => exact callForEach_congr inputs action registration _ [] items

/-- A request says of its context only to which run it belongs. -/
theorem askHuman_congr (workflow : first.workflow = second.workflow)
    (execution : first.execution = second.execution) (input : Value) :
    askHuman first step input = askHuman second step input := by
  have same : requestOf first step input = requestOf second step input := by
    rw [requestOf, requestOf, workflow, execution]
  have body : onceSeated first step input = onceSeated second step input := by
    funext seat
    rw [onceSeated, onceSeated, same]
  rw [askHuman, askHuman, same, body]

/-- A step does the same in contexts that it does not tell apart, if the steps inside it do. -/
theorem perform_congr (indifferent : step.Indifferent setup first second)
    (members : List (Step × Process)) :
    perform setup first step members = perform setup second step members := by
  have executed : ∀ input,
      execute setup first step input members = execute setup second step input members := by
    intro input
    cases found : setup.custom.find? (·.supports step) with
    | some executor =>
      rw [execute_of_supported found, execute_of_supported found]
      exact indifferent.custom executor found input members
    | none =>
      rw [execute_of_unsupported found, execute_of_unsupported found]
      cases step.kind with
      | action => exact callAction_congr indifferent.texts setup.usualLimit input
      | parallel => rfl
      | humanInLoop => exact askHuman_congr indifferent.workflow indifferent.execution input
  rw [perform, perform, Step.verdict_congr indifferent.texts,
    Step.resolvedInput_congr indifferent.texts, executed]

mutual

/-- A step does the same in contexts that neither it nor any step inside it tells apart. -/
theorem Step.process_congr (step : Step)
    (indifferent : ∀ inner ∈ step.descendants, inner.Indifferent setup first second) :
    step.process setup first = step.process setup second := by
  obtain ⟨name, kind, action, input, output, condition, timeout, fallback, loopOver, steps⟩ := step
  rw [Step.descendants, List.forall_mem_cons] at indifferent
  rw [Step.process, Step.process, processesOf_congr steps indifferent.2]
  exact perform_congr indifferent.1 _

/-- The steps inside a step have the same processes in both contexts. -/
theorem processesOf_congr (steps : List Step)
    (indifferent : ∀ inner ∈ descendantsOf steps, inner.Indifferent setup first second) :
    processesOf setup first steps = processesOf setup second steps := by
  cases steps with
  | nil => rfl
  | cons step rest =>
    rw [descendantsOf, List.forall_mem_append] at indifferent
    rw [processesOf, processesOf, Step.process_congr step indifferent.1,
      processesOf_congr rest indifferent.2]

end

/-- A step cannot tell two contexts of one run apart that agree on the variables that it and the
steps inside it mention. Its condition gives the same verdict, its input becomes the same, and in
every world every turn leaves the same records of calls and warnings behind, and the same outcome
when the step has ended. -/
theorem Step.unmentioned_variables_unseen (setup : Setup) (step : Step) (first second : Context)
    (alike : step.Alike first second)
    (custom : ∀ inner ∈ step.descendants, ∀ executor,
      setup.custom.find? (·.supports inner) = some executor →
        executor.Indifferent first second inner) :
    Condition.evaluate step.condition first = Condition.evaluate step.condition second ∧
      step.resolvedInput first = step.resolvedInput second ∧
      (∀ world environment turn,
        (step.process setup first).turnIn world environment turn =
          (step.process setup second).turnIn world environment turn) ∧
      ∀ phase outcome,
        Progress.result first phase step outcome = Progress.result second phase step outcome := by
  have indifferent := alike.indifferent custom
  have own := (indifferent step step.mem_descendants_self).texts
  refine ⟨verdict_congr own, resolvedInput_congr own, ?turns, result_congr own⟩
  intro world environment turn
  rw [step.process_congr indifferent]

/-! ### A password that is only quoted -/

/-- A step that a custom executor runs. The steps inside it mention the trigger payload and the
element of a loop, and spell out the name of another variable. -/
def Step.mailing : Step where
  name := "each order"
  kind := .parallel
  action := none
  input := none
  output := some "mailed"
  condition := some "$trigger.orders != '$password'"
  timeout := none
  fallback := none
  loopOver := none
  steps := [
    { name := "mail", kind := .action, action := some "echo", output := none, condition := none,
      input := some (.record [("subject", .text "no $password"), ("text", .text " $item.name ")]),
      timeout := some 10, fallback := none, loopOver := some "$trigger.orders", steps := [] },
    { name := "check", kind := .humanInLoop, action := none, output := none, timeout := none,
      input := some (.list [.text "$trigger", .text "$"]), condition := some "$trigger.checked",
      fallback := none, loopOver := none, steps := [] }]

/-- An engine with an executor of its own for the steps that do something with each of several
things. -/
def Setup.dispatching : Setup := ⟨2, some 100, [.named "each" .dispatch]⟩

/-- A run that was triggered with two orders. -/
def Context.ordered : Context :=
  .start "orders" "run" (.record [("checked", .bool true),
    ("orders", .list [.record [("name", .text "pen")], .record [("name", .text "ink")]])])

/-- The same run with one more output. -/
def Context.entrusted : Context := Context.ordered.setOutput "password" (.text "sesame")

/-- The environment after the first turn of a step. -/
def Step.begun (step : Step) (context : Context) : Environment :=
  ((step.process .dispatching context).turnIn (fun _ environment => environment)
    { Environment.idle with actions := .builtIn } 0).1

/-- When the orders are mailed, a human is asked about the trigger payload. -/
theorem Step.unmentioned_variables_unseen_password :
    mailing.Alike .ordered .entrusted ∧
      Context.ordered.get? "password" ≠ Context.entrusted.get? "password" ∧
      Context.ordered.outputs ≠ Context.entrusted.outputs ∧
      mailing.Mentions "trigger" ∧ mailing.Mentions "item" ∧
      (mailing.begun .entrusted).desk.entries.map (·.request.step) = ["check"] ∧
      ∀ world environment turn,
        (mailing.process .dispatching .ordered).turnIn world environment turn =
          (mailing.process .dispatching .entrusted).turnIn world environment turn := by
  have same : ∀ name ∈ mailing.mentions,
      Context.ordered.get? name = Context.entrusted.get? name := by decide +kernel
  have alike : mailing.Alike .ordered .entrusted :=
    ⟨rfl, rfl, fun name mentions => same name ((mailing.mem_mentions_iff name).mpr mentions)⟩
  have custom : ∀ inner ∈ mailing.descendants, ∀ executor,
      Setup.dispatching.custom.find? (·.supports inner) = some executor →
        executor.Indifferent .ordered .entrusted inner := by
    intro inner _ executor found input members
    have only : executor = .named "each" .dispatch :=
      List.mem_singleton.mp (List.mem_of_find?_eq_some found)
    rw [only]
    rfl
  have unseen := unmentioned_variables_unseen .dispatching mailing _ _ alike custom
  exact ⟨alike, by decide +kernel, by decide +kernel, by decide +kernel, by decide +kernel,
    by decide +kernel, unseen.2.2.1⟩

end Workflow
