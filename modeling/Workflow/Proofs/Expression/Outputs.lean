import Workflow.Proofs.Definition.Validity
import Workflow.Proofs.Expression.Mentions

/-!
# Reading outputs back

A step stores its result under a name that the check has left as it was written, and later steps
refer to a variable by the sigil and its name. The two fit together for the names that a reference
can spell: no dot cuts them and no blank character ends them. A name of any other form is stored
like all others, but the text that is meant to refer to it is a reference to another variable, so
what was stored makes no difference to it.
-/
namespace Workflow

/-- A name that a reference can spell: no dot cuts it, and no blank character at its end is trimmed
away. -/
structure Referable (name : String) : Prop where
  undotted : '.' ∉ name.toList
  unblank : ∀ last ∈ name.toList.getLast?, Text.isBlank last = false

/-! ## The text of a reference -/

/-- The sigil in front of a name is read as a reference to what is left of the name. -/
theorem resolve?_sigil (name : String) (context : Context) :
    resolve? ("$" ++ name) context =
      (Reference.ofPath (Text.trimEnd name.toList)).resolve? context := by
  have written : ("$" ++ name).toList = sigil :: name.toList := String.toList_append
  apply Reference.resolve?_reference
  rw [written, Text.trim]
  exact Text.trimEnd_cons rfl name.toList

/-- A name without dots is a reference without segments. -/
theorem Reference.ofPath_name {name : String} (undotted : '.' ∉ name.toList) :
    ofPath name.toList = ⟨name, []⟩ := by
  have joined : name.toList = Text.joined '.' name.toList (([] : List String).map String.toList) :=
    (List.append_nil name.toList).symm
  rw [joined]
  exact ofPath_joined undotted fun _ among => absurd among List.not_mem_nil

/-- A variable stands for the value that it is bound to. -/
theorem Reference.resolve?_name {name : String} (named : name ≠ "") (context : Context) :
    resolve? ⟨name, []⟩ context = context.get? name := by
  rw [resolve?, if_neg named]
  exact Option.bind_fun_some (context.get? name)

/-- A name that a reference can spell is all of the reference. -/
theorem Referable.ofPath {name : String} (referable : Referable name) :
    Reference.ofPath (Text.trimEnd name.toList) = ⟨name, []⟩ := by
  rw [Text.trimEnd_eq_self_iff.mpr referable.unblank]
  exact Reference.ofPath_name referable.undotted

/-- Where the variable has the whole name, the reference spells the name. -/
theorem Referable.of_root {name : String}
    (same : (Reference.ofPath (Text.trimEnd name.toList)).root = name) : Referable name := by
  obtain ⟨whole, undotted, -⟩ := Reference.joined_ofPath (Text.trimEnd name.toList)
  rw [same] at whole undotted
  have shorter : Text.trimEnd name.toList <+: name.toList := Text.trimEnd_prefix name.toList
  -- The name is a prefix of what is left of it, so nothing was trimmed away.
  have longer : name.toList.length ≤ (Text.trimEnd name.toList).length := by
    rw [← whole, Text.joined, List.length_append]
    exact Nat.le_add_right _ _
  have kept : Text.trimEnd name.toList = name.toList := shorter.eq_of_length_le longer
  exact ⟨undotted, Text.trimEnd_eq_self_iff.mp kept⟩

/-! ## Storing and reading -/

/-- An output is found under its name. -/
theorem Context.get?_setOutput_self (context : Context) (name : String) (value : Value) :
    (context.setOutput name value).get? name = some value := List.lookup_cons_self

/-- An output leaves the other names as they are. -/
theorem Context.get?_setOutput_of_ne (context : Context) {name other : String}
    (differ : other ≠ name) (value : Value) :
    (context.setOutput name value).get? other = context.get? other := by
  have unequal : (other == name) = false := by simpa using differ
  rw [get?, setOutput, bind, List.lookup_cons, unequal, get?]

/-- A reference to another variable does not see what is stored. -/
theorem Reference.resolve?_setOutput_of_ne {reference : Reference} {name : String}
    (differ : reference.root ≠ name) (context : Context) (value : Value) :
    reference.resolve? (context.setOutput name value) = reference.resolve? context := by
  rw [resolve?, resolve?, context.get?_setOutput_of_ne differ]

/-- What is stored under a name that a reference can spell is read back. -/
theorem Referable.resolve?_setOutput {name : String} (referable : Referable name)
    (named : name ≠ "") (context : Context) (value : Value) :
    resolve? ("$" ++ name) (context.setOutput name value) = some value := by
  rw [resolve?_sigil, referable.ofPath, Reference.resolve?_name named]
  exact context.get?_setOutput_self name value

/-- What is stored under any other name makes no difference to the sigil and the name. -/
theorem resolve?_setOutput_of_not_referable {name : String} (other : ¬Referable name)
    (context : Context) (value : Value) :
    resolve? ("$" ++ name) (context.setOutput name value) = resolve? ("$" ++ name) context := by
  rw [resolve?_sigil, resolve?_sigil]
  exact Reference.resolve?_setOutput_of_ne (fun same => other (.of_root same)) context value

/-- A step that has passed the check has an output that is not empty. -/
theorem output_ne_empty {draft : StepDraft} {step : Step} (accepted : draft.validate = .ok step)
    {name : String} (named : step.output = some name) : name ≠ "" := by
  rw [(StepDraft.validate_iff.mp accepted).output, unlessBlank_eq_some] at named
  rintro rfl
  exact absurd named.2 (by decide)

/-- Whatever a step that has passed the check stores under the name of its output, the sigil and the
name lead to it in every context just if a reference can spell the name; otherwise they lead where
they led before. -/
theorem outputs_read_back {draft : StepDraft} {step : Step} (accepted : draft.validate = .ok step)
    {name : String} (named : step.output = some name) :
    ((∀ (context : Context) (value : Value),
        resolve? ("$" ++ name) (context.setOutput name value) = some value) ↔ Referable name) ∧
    (¬Referable name → ∀ (context : Context) (value : Value),
      resolve? ("$" ++ name) (context.setOutput name value) =
        resolve? ("$" ++ name) context) := by
  refine ⟨⟨fun readBack => ?_, fun referable => ?_⟩, resolve?_setOutput_of_not_referable⟩
  · by_contra other
    -- Two values cannot both be what was there before.
    let context := Context.start "" "" .null
    have first := readBack context .null
    have second := readBack context (.bool true)
    rw [resolve?_setOutput_of_not_referable other] at first second
    rw [first] at second
    cases second
  · exact referable.resolve?_setOutput (output_ne_empty accepted named)

/-- A step that gives a value back and stores it under a name. -/
def storing (name : String) : StepDraft where
  name := "stores"
  kind := .action
  action := some "echo"
  output := some name
  condition := none
  timeout := none
  loopOver := none
  fallback := none
  input := none
  steps := []

/-- The step of which that is the draft. -/
def stores (name : String) : Step where
  name := "stores"
  kind := .action
  action := some "echo"
  input := none
  output := some name
  condition := none
  timeout := none
  fallback := none
  loopOver := none
  steps := []

/-- A name with a dot passes the check, but what is stored under it is not read back. -/
theorem dotted_output_not_read_back :
    ∃ (draft : StepDraft) (step : Step) (name : String) (context : Context) (value : Value),
      draft.validate = .ok step ∧ step.output = some name ∧
      resolve? ("$" ++ name) (context.setOutput name value) ≠ some value := by
  have accepted : (storing "order.id").validate = .ok (stores "order.id") := by decide +kernel
  exact ⟨storing "order.id", stores "order.id", "order.id", .start "w" "run" .null, .ofInt 7,
    accepted, rfl, by decide +kernel⟩

/-- Blank characters at the front and inside of a name are no obstacle. -/
theorem outputs_read_back_spaced :
    (storing " ご注文 id").validate = .ok (stores " ご注文 id") ∧
    (stores " ご注文 id").output = some " ご注文 id" ∧ Referable " ご注文 id" ∧
    ∀ (context : Context) (value : Value),
      resolve? "$ ご注文 id" (context.setOutput " ご注文 id" value) = some value := by
  have accepted : (storing " ご注文 id").validate = .ok (stores " ご注文 id") := by
    decide +kernel
  have referable : Referable " ご注文 id" := by
    refine ⟨by decide +kernel, fun last ends => ?_⟩
    obtain rfl : 'd' = last := Option.some.inj ends
    decide
  exact ⟨accepted, rfl, referable, (outputs_read_back accepted rfl).1.mpr referable⟩

end Workflow
