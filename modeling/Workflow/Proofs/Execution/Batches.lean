import Workflow.Proofs.Execution.Histories
import Workflow.Proofs.Execution.Writes

/-!
# Groups and the size of their batches

When each step of a group gives an outcome that does not depend on when the step runs, the group
gives one output, whatever the size of its batches. The output is described without batches: the
value has one field for each step, and the exports follow the steps in order. A step that fails
counts as null in its own field and writes nothing; it does not make the group fail.
-/
namespace Workflow

variable {table : ActionRegistry} {outcomeOf : Step → Outcome}

/-- Members end with the outcomes of their steps. -/
theorem members_give {members : List (Step × Process)}
    (each : ∀ member ∈ members, member.2.Gives table (outcomeOf member.1)) :
    List.Forall₂ (fun process outcome => process.Gives table outcome) (members.map Prod.snd)
      (members.map fun member => outcomeOf member.1) := by
  rw [List.forall₂_map_left_iff, List.forall₂_map_right_iff, List.forall₂_same]
  exact each

/-- Batches of steps give what all of them together give. -/
theorem runBatches_gives (group : String) (collected : Collected)
    (cut : List (List (Step × Process)))
    (each : ∀ member ∈ cut.flatten, member.2.Gives table (outcomeOf member.1)) :
    (runBatches group collected cut).Gives table (.ok (some (collected.addAll
      ((cut.flatten.map Prod.fst).map fun step => (step, outcomeOf step))).output)) := by
  induction cut generalizing collected with
  | nil => exact .settle table _
  | cons batch rest ih =>
    rw [List.flatten_cons] at each ⊢
    have first := members_give fun member inside => each member (List.mem_append_left _ inside)
    have later := ih (collected.addAll ((batch.map Prod.fst).map fun step =>
      (step, outcomeOf step))) fun member inside => each member (List.mem_append_right _ inside)
    rw [List.map_append, List.map_append, Collected.addAll_append]
    have zipped : (batch.map Prod.fst).zip (batch.map fun member => outcomeOf member.1) =
        (batch.map Prod.fst).map fun step => (step, outcomeOf step) := by
      rw [List.zip_map', List.map_map]
      rfl
    refine .together first (.warnAll ?_ _)
    rwa [zipped]

/-- A group with steps gives an output that does not depend on the size of its batches. -/
theorem runGroup_gives (size : Nat) {group : Step} (inhabited : group.steps ≠ [])
    {processOf : Step → Process}
    (each : ∀ step ∈ group.steps, (processOf step).Gives table (outcomeOf step)) :
    (runGroup size group (group.steps.map fun step => (step, processOf step))).Gives table
      (.ok (some (groupOutput (group.steps.map fun step => (step, outcomeOf step))))) := by
  have flat : ∀ member ∈
      (batches size (group.steps.map fun step => (step, processOf step))).flatten,
      member.2.Gives table (outcomeOf member.1) := by
    rw [flatten_batches, List.forall_mem_map]
    exact each
  have gives := runBatches_gives group.name .nothing _ flat
  rw [flatten_batches, List.map_map, List.map_map, Collected.output_addAll] at gives
  rw [runGroup, if_neg (by simpa using inhabited)]
  exact gives

/-- Every group whose steps each give an outcome of their own gives one output, and nothing else,
with batches of every size. The output has a field for each step and the writes of each in order. -/
theorem runGroup_independent (table : ActionRegistry) (group : Step)
    (inhabited : group.steps ≠ []) (distinct : (group.steps.map Step.name).Nodup)
    (processOf : Step → Process) (outcomeOf : Step → Outcome)
    (each : ∀ step ∈ group.steps, (processOf step).Gives table (outcomeOf step)) :
    ∃ output : Output,
      (∀ size outcome,
        (runGroup size group (group.steps.map fun step => (step, processOf step))).Gives table
          outcome ↔ outcome = .ok (some output)) ∧
      (∃ fields, output.value = .record fields ∧
        (fields.map Prod.fst).Perm (group.steps.map Step.name)) ∧
      (∀ step ∈ group.steps, output.value.field? step.name = some (outcomeOf step).valueOrNull) ∧
      output.exports = group.steps.flatMap fun step => (outcomeOf step).writes step := by
  have names : ((group.steps.map fun step => (step, outcomeOf step)).map fun entry =>
      (entry.1.name, entry.2.valueOrNull)).map Prod.fst = group.steps.map Step.name := by
    rw [List.map_map, List.map_map]
    rfl
  refine ⟨groupOutput (group.steps.map fun step => (step, outcomeOf step)), ?_, ?_, ?_, ?_⟩
  · intro size outcome
    have gives := runGroup_gives size inhabited each
    constructor
    · exact fun also => also.unique gives
    · rintro rfl
      exact gives
  · refine ⟨_, Value.ofFields_eq _, ?_⟩
    rw [← names]
    exact Table.keys_ofEntries (names ▸ distinct)
  · intro step inside
    have member : (step.name, (outcomeOf step).valueOrNull) ∈
        (group.steps.map fun step => (step, outcomeOf step)).map fun entry =>
          (entry.1.name, entry.2.valueOrNull) := by
      rw [List.map_map]
      exact List.mem_map_of_mem inside
    exact Table.get?_ofEntries_of_mem (names ▸ distinct) member
  · exact List.flatMap_map ..

/-! ## A group of which one step waits, one fails and one is skipped -/

/-- A step that calls an action. -/
def plainCall (name action : String) (input : Option Value) : Step :=
  ⟨name, .action, some action, input, some name, none, none, none, none, []⟩

/-- A step that waits, one whose action is not registered, and one whose condition does not hold. -/
def mixedGroup : Step where
  name := "mixed"
  kind := .parallel
  action := none
  input := none
  output := none
  condition := none
  timeout := none
  fallback := none
  loopOver := none
  steps := [
    plainCall "slow" "wait" (some (.record [("duration", .ofNat 5)])),
    plainCall "gone" "gone" none,
    { plainCall "idle" "echo" none with condition := some "$nothing" }]

/-- The process of a step inside the group. -/
def mixedProcess (step : Step) : Process :=
  step.process ⟨2, none, []⟩ (.start "mixed" "run" .null)

/-- What the steps inside the group give. -/
def mixedOutcome (step : Step) : Outcome :=
  if step.name = "slow" then .ofValue (.record [("waited", .ofNat 5)])
  else if step.name = "gone" then .error (.unknownAction "gone")
  else .ok none

/-- Each member of the mixed group gives its outcome. -/
theorem mixedGroup_gives : ∀ step ∈ mixedGroup.steps,
    (mixedProcess step).Gives .builtIn (mixedOutcome step) := by
  intro step inside
  simp only [mixedGroup, List.mem_cons, List.not_mem_nil, or_false] at inside
  rcases inside with rfl | rfl | rfl
  · have registered : ActionRegistry.builtIn.find? "wait" = some 1 := by rfl
    refine .lookUp ?_
    rw [registered]
    have known : ActionRegistry.builtIn.registrations[1]?.map Registered.action =
        some Action.wait := by
      rfl
    refine .call known (fun _ => rfl) (fun cut impossible => nomatch impossible) ?_
    exact .settle _ _
  · have missing : ActionRegistry.builtIn.find? "gone" = none := by rfl
    refine .lookUp ?_
    rw [missing]
    exact .settle _ _
  · exact .settle _ _

/-- A group of which one member waits, one fails and one is skipped gives one output, whatever the
size of its batches. -/
theorem runGroup_independent_mixed :
    mixedGroup.steps ≠ [] ∧ (mixedGroup.steps.map Step.name).Nodup ∧
    (∀ step ∈ mixedGroup.steps, (mixedProcess step).Gives .builtIn (mixedOutcome step)) ∧
    ∃ output : Output,
      (∀ size outcome, (runGroup size mixedGroup
          (mixedGroup.steps.map fun step => (step, mixedProcess step))).Gives .builtIn outcome ↔
        outcome = .ok (some output)) ∧
      output.value.field? "gone" = some .null ∧
      output.exports = [("slow", .record [("waited", .ofNat 5)])] := by
  have inhabited : mixedGroup.steps ≠ [] := by simp [mixedGroup]
  have distinct : (mixedGroup.steps.map Step.name).Nodup := by decide
  refine ⟨inhabited, distinct, mixedGroup_gives, ?_⟩
  obtain ⟨output, only, -, fields, exports⟩ := runGroup_independent .builtIn mixedGroup inhabited
    distinct mixedProcess mixedOutcome mixedGroup_gives
  refine ⟨output, only, ?_, exports⟩
  exact fields (plainCall "gone" "gone" none) (by simp [mixedGroup])

end Workflow
