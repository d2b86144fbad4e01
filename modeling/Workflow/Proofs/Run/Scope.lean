import Workflow.Proofs.Definition.Checked
import Workflow.Proofs.Execution.Defects
import Workflow.Proofs.Execution.Handouts
import Workflow.Proofs.Run.Chronicle

/-!
# Reserved names

Two names are reserved: that of the trigger payload, which is bound from the beginning of a run, and
that of the current element of a loop, which is bound in the rounds of a loop only. They are
protected by the check of each step when a definition is read: no step, at any depth, stores its
result under one of them (`Definition.ofText_unreserved`). So nothing that a step writes has a
reserved name, every context of a run is proper, and so is what is judged and resolved in it.
-/
namespace Workflow

/-! ## Outputs of checked steps -/

/-- A step without a flaw does not store its result under a reserved name. -/
theorem output_of_stepFlaw? {kind : StepKind} {action output loopOver : Option String}
    {timeout : Option Nat} {hasSubSteps : Bool}
    (flawless : stepFlaw? kind action output loopOver timeout hasSubSteps = none) {name : String}
    (stores : output = some name) : name ∉ reservedNames := by
  intro reserved
  subst stores
  unfold stepFlaw? at flawless
  repeat' split at flawless
  all_goals first
    | cases flawless
    | simp [Option.filter, reserved] at flawless

/-- No step of a definition that was read stores its result under a reserved name. -/
theorem Definition.ofText_unreserved {text : String} {definition : Definition}
    (read : Definition.ofText text = .ok definition) :
    ∀ step ∈ definition.allSteps, ∀ name, step.output = some name → name ∉ reservedNames := by
  obtain ⟨document, -, read⟩ := ok_of_bind read
  obtain ⟨draft, -, read⟩ := ok_of_bind read
  have describes := Draft.validate_iff.mp (ok_of_mapError read)
  intro step member name stores
  obtain ⟨origin, -, fits⟩ := describes.origin step member
  exact output_of_stepFlaw? fits.flawless stores

/-! ## What steps write -/

/-- A single step writes under its own name for the result only. -/
theorem writes_of_ofValue {step : Step} {value : Value} {write : String × Value}
    (member : write ∈ Outcome.writes (.ok (some (.ofValue value))) step) :
    step.output = some write.1 := by
  rw [Outcome.writes, Progress.writes, Output.ofValue, List.nil_append] at member
  obtain ⟨name, stores, rfl⟩ := List.mem_map.mp member
  exact Option.mem_toList.mp stores

mutual

/-- Whatever a step writes has the name under which the step or a step inside it stores its result.
-/
theorem Step.Ends.writes_named {setup : Setup} {context : Context} (step : Step)
    {outcome : Outcome} (ends : step.Ends setup context outcome) :
    ∀ write ∈ outcome.writes step, ∃ inner ∈ step.descendants, inner.output = some write.1 := by
  obtain ⟨name, kind, action, input, output, condition, timeout, fallback, loopOver, steps⟩ := step
  intro write member
  cases ends with
  | skipped => cases member
  | single _ _ _ plain =>
    cases outcome with
    | error error => cases member
    | ok given =>
      obtain ⟨value, rfl⟩ := plain given rfl
      exact ⟨_, Step.mem_descendants_self _, writes_of_ofValue member⟩
  | group _ _ _ members =>
    rw [Outcome.writes, Progress.writes] at member
    rw [Step.descendants]
    rcases List.mem_append.mp member with exported | own
    · obtain ⟨inner, deeper, stores⟩ := members_write_named steps members write exported
      exact ⟨inner, List.mem_cons_of_mem _ deeper, stores⟩
    · obtain ⟨stored, stores, rfl⟩ := List.mem_map.mp own
      exact ⟨_, List.mem_cons_self, Option.mem_toList.mp stores⟩
  | empty => cases member

/-- Whatever the steps of a group write has the name of a result inside the group. -/
theorem members_write_named {setup : Setup} {context : Context} (steps : List Step)
    {outcomes : List Outcome} (each : List.Forall₂ (Step.Ends setup context) steps outcomes) :
    ∀ write ∈ (groupOutput (steps.zip outcomes)).exports,
      ∃ inner ∈ descendantsOf steps, inner.output = some write.1 := by
  intro write member
  cases each with
  | nil => cases member
  | @cons step outcome rest others first later =>
    rw [descendantsOf]
    change write ∈ outcome.writes step ++ (groupOutput (rest.zip others)).exports at member
    rcases List.mem_append.mp member with own | exported
    · obtain ⟨inner, deeper, stores⟩ := Step.Ends.writes_named step first write own
      exact ⟨inner, List.mem_append_left _ deeper, stores⟩
    · obtain ⟨inner, deeper, stores⟩ := members_write_named rest later write exported
      exact ⟨inner, List.mem_append_right _ deeper, stores⟩

end

/-! ## Contexts -/

/-- In the context of a run the reserved names mean what they should. -/
structure Context.Proper (context : Context) (trigger : Value) : Prop where
  trigger : context.get? triggerName = some trigger
  item : context.get? itemName = none
  distinct : context.outputNames.Nodup
  bound : ∀ name ∈ context.outputNames, (context.get? name).isSome
  unreserved : ∀ name ∈ context.outputNames, name ∉ reservedNames

namespace Context.Proper

variable {context : Context} {trigger : Value}

/-- The context in which a run begins is proper. -/
theorem start (workflow execution : String) (trigger : Value) :
    (Context.start workflow execution trigger).Proper trigger := by
  constructor
  · rfl
  · rfl
  · exact .nil
  · exact fun name member => absurd member List.not_mem_nil
  · exact fun name member => absurd member List.not_mem_nil

/-- Storing an output under a name that is free leaves the reserved names alone. -/
theorem setOutput (proper : context.Proper trigger) {name : String} (free : name ∉ reservedNames)
    (value : Value) : (context.setOutput name value).Proper trigger := by
  have others : ∀ other, other ≠ name →
      (context.setOutput name value).get? other = context.get? other := by
    intro other differs
    have differ : (other == name) = false := by simpa using differs
    simp [Context.get?, Context.setOutput, Context.bind, List.lookup_cons, differ]
  have own : (context.setOutput name value).get? name = some value := by
    simp [Context.get?, Context.setOutput, Context.bind]
  have names : ∀ other ∈ (context.setOutput name value).outputNames,
      other ∈ context.outputNames ∨ other = name := by
    intro other member
    have either := (mem_outputNames_setOutputs context [(name, value)] other).mp member
    simpa using either
  have reserved : ∀ other ∈ reservedNames, other ≠ name :=
    fun other member same => free (same ▸ member)
  constructor
  · rw [others _ (reserved _ (by decide)), proper.trigger]
  · rw [others _ (reserved _ (by decide)), proper.item]
  · rw [Context.setOutput]
    split
    · exact proper.distinct
    next fresh =>
      have together := proper.distinct.concat fresh
      rwa [List.concat_eq_append] at together
  · intro other member
    by_cases same : other = name
    · rw [same, own]
      rfl
    · have known := (names other member).resolve_right same
      rw [others other same]
      exact proper.bound other known
  · intro other member
    rcases names other member with known | rfl
    · exact proper.unreserved other known
    · exact free

/-- Outputs under names that are not reserved keep a context proper. -/
theorem setOutputs (proper : context.Proper trigger) {writes : List (String × Value)}
    (free : ∀ write ∈ writes, write.1 ∉ reservedNames) :
    (context.setOutputs writes).Proper trigger := by
  induction writes generalizing context with
  | nil => exact proper
  | cons write rest ih =>
    have stored := proper.setOutput (free write List.mem_cons_self) write.2
    exact ih stored fun later member => free later (List.mem_cons_of_mem _ member)

/-- A reference to the current element of a loop is undefined. -/
theorem undefined (proper : context.Proper trigger) {reference : Reference}
    (current : reference.root = itemName) : reference.resolve? context = none := by
  rw [Reference.resolve?, current, proper.item]
  rfl

end Context.Proper

/-! ## Runs -/

/-- A step is judged, resolved and repeated in a proper context. -/
structure Step.Guarded (setup : Setup) (context : Context) (trigger : Value) (step : Step) :
    Prop where
  proper : context.Proper trigger
  /-- A text that refers to the current element of a loop has no value. -/
  undefined : ∀ text reference, Expression.ofText text = .reference reference →
    reference.root = itemName → resolve? text context = none
  /-- Only in a round of a loop there is a current element. -/
  hands : (step.process setup context).Hands (HandedBy context [step]) 0

/-- Without custom executors every step in a proper context is guarded. -/
theorem Step.guarded {setup : Setup} (custom : setup.custom = []) {context : Context}
    {trigger : Value} (proper : context.Proper trigger) (step : Step) :
    step.Guarded setup context trigger := by
  refine ⟨proper, fun text reference refers current => ?_, step.process_hands custom context⟩
  rw [resolve?, refers]
  exact proper.undefined current

/-- What is told of a run happens in proper contexts. -/
structure Guards (setup : Setup) (first : Context) (trigger : Value) (entries : List Entry) :
    Prop where
  /-- The context after everything that was written. -/
  last : (first.following entries).Proper trigger
  each : ∀ earlier entry later, entries = earlier ++ entry :: later →
    entry.step.Guarded setup (first.following earlier) trigger

section

variable {setup : Setup} {definition : Definition} {first : Context} {trigger : Value}
  {entries : List Entry} {results : List StepResult}

/-- The steps of a run write under names that are not reserved. -/
theorem Chronicle.unreserved (chronicle : Chronicle setup definition first entries results)
    (checked : ∀ step ∈ definition.allSteps, ∀ name, step.output = some name →
      name ∉ reservedNames) : ∀ write ∈ entries.flatMap Entry.writes, write.1 ∉ reservedNames := by
  intro write member
  obtain ⟨entry, known, writes⟩ := List.mem_flatMap.mp member
  obtain ⟨earlier, later, split⟩ := List.append_of_mem known
  obtain ⟨result, -, tells⟩ := chronicle.each earlier entry later split
  obtain ⟨inner, inside, stores⟩ := tells.ends.writes_named entry.step write writes
  exact checked inner (Definition.mem_allSteps_of_listed tells.listed inside) _ stores

/-- What is told of a run happens in proper contexts if no step writes under a reserved name. -/
theorem Chronicle.guards (chronicle : Chronicle setup definition first entries results)
    (custom : setup.custom = []) (proper : first.Proper trigger)
    (checked : ∀ step ∈ definition.allSteps, ∀ name, step.output = some name →
      name ∉ reservedNames) : Guards setup first trigger entries := by
  -- The context before an entry results from what was written earlier, a part of all writes.
  have free := chronicle.unreserved checked
  refine ⟨proper.setOutputs free, fun earlier entry later split => ?_⟩
  have before : (first.following earlier).Proper trigger := by
    refine proper.setOutputs fun write member => free write ?_
    rw [split, List.flatMap_append]
    exact List.mem_append_left _ member
  exact entry.step.guarded custom before

/-- Neither reserved name is a field of what was written. -/
theorem Report.ToldBy.unreserved {report : Report}
    (told : report.ToldBy setup definition first entries)
    (checked : ∀ step ∈ definition.allSteps, ∀ name, step.output = some name →
      name ∉ reservedNames) : ∀ name ∈ reservedNames, report.output.field? name = none := by
  intro name reserved
  rw [told.latest, List.lookup_eq_none_iff]
  intro write member
  have free := told.chronicle.unreserved checked write (List.mem_reverse.mp member)
  simpa using fun same : name = write.1 => free (same ▸ reserved)

/-- Where a task has come to that began as a run with a trigger payload: the reserved names have
been kept so far. -/
inductive Task.Guarded (setup : Setup) (definition : Definition) (first : Context)
    (trigger : Value) (engine : Nat) : Task → Prop where
  | running {run : Run} {entries : List Entry}
      (told : run.progress.ToldBy setup definition first entries)
      (guards : Guards setup first trigger entries)
      (now : run.step.Guarded setup run.progress.context trigger)
      (comes : (run.step.process setup run.progress.context).ComesTo run.activity) :
      Guarded setup definition first trigger engine (.running engine run)
  | ended {report : Report} {entries : List Entry}
      (told : report.ToldBy setup definition first entries)
      (guards : Guards setup first trigger entries)
      (free : ∀ name ∈ reservedNames, report.output.field? name = none) :
      Guarded setup definition first trigger engine (.ended (.ok report))
  | taken : Guarded setup definition first trigger engine .taken

/-- A task that is told keeps the reserved names, if its definition has been checked. -/
theorem Task.Told.guarded {engine : Nat} {task : Task}
    (told : task.Told setup definition first engine) (custom : setup.custom = [])
    (proper : first.Proper trigger)
    (checked : ∀ step ∈ definition.allSteps, ∀ name, step.output = some name →
      name ∉ reservedNames) : task.Guarded setup definition first trigger engine := by
  cases told with
  | running told =>
    cases told with
    | waiting same told listed comes =>
      have guards := told.1.guards custom proper checked
      refine .running told guards ?_ comes
      rw [told.2]
      exact Step.guarded custom guards.last _
  | ended told =>
    exact .ended told (told.chronicle.guards custom proper checked) (told.unreserved checked)
  | taken => exact .taken

end

/-! ## Hosts -/

/-- A run of a definition that was read keeps the reserved names at every moment on an engine
without custom executors, whatever happens on its host, and so does an execution. -/
theorem Host.reserved_names_kept (host : Host) (engine : Nat) (workflow text : String)
    (definition : Definition) (read : Definition.ofText text = .ok definition)
    (registered : host.library.find? workflow = some definition)
    (custom : (host.engine engine).custom = []) (execution : String) (trigger : Value) :
    (∀ incidents, ∃ task, ((host.after (.begins engine workflow execution trigger)).afterAll
        incidents).runs[host.runs.length]? = some task ∧
      task.Guarded (host.engine engine).setup definition
        (.start definition.name execution trigger) trigger engine) ∧
    (∀ report, (host.executeWithId engine workflow execution trigger).1 =
        .finished (.ok report) →
      (Task.ended (.ok report)).Guarded (host.engine engine).setup definition
        (.start definition.name execution trigger) trigger engine) := by
  have checked := Definition.ofText_unreserved read
  have guarded : ∀ incidents, ∃ task, ((host.after (.begins engine workflow execution
      trigger)).afterAll incidents).runs[host.runs.length]? = some task ∧
      task.Guarded (host.engine engine).setup definition
        (.start definition.name execution trigger) trigger engine := by
    intro incidents
    obtain ⟨task, found, told⟩ := told_afterAll registered custom execution trigger incidents
    exact ⟨task, found, told.guarded custom (.start _ _ _) checked⟩
  refine ⟨guarded, fun report finished => ?_⟩
  obtain ⟨_, ⟨incidents, -, rfl⟩, done⟩ := executeWithId_leads finished
  obtain ⟨task, found, kept⟩ := guarded incidents
  obtain rfl := Option.some.inj (found.symm.trans done)
  exact kept

/-- A workflow that repeats a step over the trigger payload, and then refers to an element. -/
def loopedText : String := "[workflow]
name = \"w\"
[[steps]]
name = \"a\"
action = \"echo\"
loop = \"$trigger\"
input = \"$item\"
output = \"all\"
[[steps]]
name = \"b\"
action = \"echo\"
input = \"$item\"
output = \"one\"
"

/-- What the text describes. -/
def looped : Definition where
  name := "w"
  description := none
  version := none
  trigger := .manual
  steps := [{ Step.calling "a" "echo" "$item" "all" with loopOver := some "$trigger" },
    .calling "b" "echo" "$item" "one"]
  onComplete := []
  onError := []

-- The characters of the text are one term, as deep as the text is long.
set_option maxRecDepth 2000 in
/-- The looped workflow is what its text is read as. -/
theorem looped_read : Definition.ofText loopedText = .ok looped :=
  (Definition.ofText_spelled rfl).trans (by decide +kernel)

/-- Each round of the loop has its own element, and outside the rounds there is none. -/
theorem looped_reserved_names_kept :
    Definition.ofText loopedText = .ok looped ∧
    ((Host.holding looped).executeWithId 0 "w" "run" (.list [.text "x", .text "y"])).1 =
      .finished (.ok ⟨"run", "w",
        [⟨"a", .main, .completed, some .null, some (.list [.text "x", .text "y"]), none⟩,
          ⟨"b", .main, .completed, some .null, some .null, none⟩],
        .record [("all", .list [.text "x", .text "y"]), ("one", .null)], none⟩) ∧
    ∀ report, ((Host.holding looped).executeWithId 0 "w" "run"
        (.list [.text "x", .text "y"])).1 = .finished (.ok report) →
      (Task.ended (.ok report)).Guarded ((Host.holding looped).engine 0).setup looped
        (.start looped.name "run" (.list [.text "x", .text "y"]))
        (.list [.text "x", .text "y"]) 0 := by
  have registered : (Host.holding looped).library.find? "w" = some looped := rfl
  have kept := Host.reserved_names_kept (Host.holding looped) 0 "w" loopedText looped looped_read
    registered rfl "run" (.list [.text "x", .text "y"])
  exact ⟨looped_read, RunAnswer.eq_of_report? (by decide +kernel), kept.2⟩

end Workflow
