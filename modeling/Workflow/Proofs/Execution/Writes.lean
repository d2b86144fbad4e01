import Workflow.Proofs.Definition.Groups
import Workflow.Proofs.Table
import Workflow.Run

/-!
# What steps write

A step that gives an output writes its exports and then its value under its name; any other step
writes nothing. A group exports what its steps write, in their order, and a run stores what its
steps write: of several values under one name the last one counts. Where all outputs of a context
have been stored since its beginning, they are the record of everything that was written.
-/
namespace Workflow

/-- What a step that has ended writes, in order. -/
def Outcome.writes (outcome : Outcome) (step : Step) : List (String × Value) :=
  match outcome with
  | .ok (some output) => Progress.writes step output
  | .ok none | .error _ => []

/-- The value of a step for its group: null if it was skipped or failed. -/
def Outcome.valueOrNull : Outcome → Value
  | .ok (some output) => output.value
  | .ok none | .error _ => .null

/-- The output of a group whose steps have ended. -/
def groupOutput (ended : List (Step × Outcome)) : Output where
  value := .ofFields (ended.map fun entry => (entry.1.name, entry.2.valueOrNull))
  exports := ended.flatMap fun entry => entry.2.writes entry.1

/-! ## Groups -/

namespace Collected

/-- What is collected of steps that have ended follows what has been collected before. -/
theorem addAll_eq (collected : Collected) (ended : List (Step × Outcome)) :
    collected.addAll ended =
      ⟨collected.values ++ ended.map fun entry => (entry.1.name, entry.2.valueOrNull),
        collected.exports ++ ended.flatMap fun entry => entry.2.writes entry.1⟩ := by
  induction ended generalizing collected with
  | nil => simp [addAll]
  | cons entry rest ih =>
    obtain ⟨step, outcome⟩ := entry
    rw [addAll, List.foldl_cons, ← addAll, ih]
    rcases outcome with error | _ | output
    · simp [add, Outcome.valueOrNull, Outcome.writes]
    · simp [add, Outcome.valueOrNull, Outcome.writes]
    · simp [add, Outcome.valueOrNull, Outcome.writes, Progress.writes, stored]

/-- To add two lists of outcomes is to add one after the other. -/
theorem addAll_append (collected : Collected) (first second : List (Step × Outcome)) :
    collected.addAll (first ++ second) = (collected.addAll first).addAll second :=
  List.foldl_append

/-- What a group gives that has collected everything. -/
theorem output_addAll (ended : List (Step × Outcome)) :
    (nothing.addAll ended).output = groupOutput ended := by
  rw [addAll_eq]
  rfl

end Collected

/-- Batches contain every item once, in the order of the items. -/
theorem flatten_batches {Item : Type} (size : Nat) (items : List Item) :
    (batches size items).flatten = items := by
  fun_induction batches size items with
  | case1 => rfl
  | case2 item rest ih => rw [List.flatten_cons, ih, List.cons_append, List.take_append_drop]

/-! ## Contexts -/

namespace Context

/-- The last value that is stored under a name is found under it. -/
theorem get?_setOutputs (context : Context) (writes : List (String × Value)) (name : String) :
    (context.setOutputs writes).get? name =
      (writes.reverse.lookup name).or (context.get? name) := by
  induction writes generalizing context with
  | nil => rfl
  | cons write rest ih =>
    have step : (context.setOutputs (write :: rest)).get? name =
        ((context.setOutput write.1 write.2).setOutputs rest).get? name := rfl
    rw [step, ih, List.reverse_cons, List.lookup_append, Option.or_assoc]
    congr 1
    rw [get?, setOutput, bind, List.lookup_cons, List.lookup_cons]
    cases name == write.1 <;> rfl

/-- The names of the outputs are those under which something has been stored. -/
theorem mem_outputNames_setOutputs (context : Context) (writes : List (String × Value))
    (name : String) : name ∈ (context.setOutputs writes).outputNames ↔
      name ∈ context.outputNames ∨ name ∈ writes.map Prod.fst := by
  induction writes generalizing context with
  | nil => simp [setOutputs]
  | cons write rest ih =>
    have step : (context.setOutputs (write :: rest)).outputNames =
        ((context.setOutput write.1 write.2).setOutputs rest).outputNames := rfl
    have first : name ∈ (context.setOutput write.1 write.2).outputNames ↔
        name ∈ context.outputNames ∨ name = write.1 := by
      rw [setOutput]
      by_cases known : write.1 ∈ context.outputNames
      · rw [if_pos known]
        exact ⟨.inl, fun either => either.elim id fun same => same ▸ known⟩
      · rw [if_neg known, List.mem_append, List.mem_singleton]
    rw [step, ih, first, List.map_cons, List.mem_cons, or_assoc]

/-- Storing more is storing it after the rest. -/
theorem setOutputs_append (context : Context) (first second : List (String × Value)) :
    context.setOutputs (first ++ second) = (context.setOutputs first).setOutputs second :=
  List.foldl_append

/-- The value that names with values have under a name. -/
theorem lookup_named (names : List String) (value? : String → Option Value) (name : String) :
    (names.filterMap fun other => (value? other).map (other, ·)).lookup name =
      if name ∈ names then value? name else none := by
  induction names with
  | nil => rfl
  | cons first rest ih =>
    rw [List.filterMap_cons]
    by_cases same : name = first
    · subst same
      cases found : value? name with
      | none => simp only [Option.map_none, ih, found, ite_self]
      | some value => simp
    · have differ : (name == first) = false := by simpa using same
      cases value? first with
      | none => simp [ih, same]
      | some value => simp [List.lookup_cons, differ, ih, same]

/-- The outputs of a context are the record of all that was written, if nothing was stored before.
-/
theorem outputs_setOutputs {context : Context} (fresh : context.outputNames = [])
    (writes : List (String × Value)) :
    (context.setOutputs writes).outputs = .ofFields writes := by
  rw [outputs, Value.ofFields_eq, Value.ofFields_eq]
  congr 1
  refine Table.ofEntries_eq fun name => ?_
  rw [← List.filterMap_reverse, lookup_named]
  simp only [List.mem_reverse, mem_outputNames_setOutputs, get?_setOutputs, fresh]
  cases found : writes.reverse.lookup name with
  | some value =>
    have written : name ∈ writes.map Prod.fst := by
      obtain ⟨before, after, split, -⟩ := List.lookup_eq_some_iff.mp found
      have member : (name, value) ∈ writes := by
        rw [← List.mem_reverse, split]
        exact List.mem_append_right _ List.mem_cons_self
      exact List.mem_map.mpr ⟨_, member, rfl⟩
    simp [written]
  | none =>
    have unwritten : name ∉ writes.map Prod.fst := by
      intro written
      obtain ⟨write, member, rfl⟩ := List.mem_map.mp written
      have differ := List.lookup_eq_none_iff.mp found write (List.mem_reverse.mpr member)
      simp at differ
    rw [if_neg (by simpa using unwritten)]

end Context

end Workflow
