import Mathlib.Algebra.Ring.Nat
import Workflow.Proofs.Definition.Checked

/-!
# Definitions written and read again

A definition that was read from a text is written as its draft, and the draft describes the
definition. Writing fails exactly if a null occurs in an input or a fallback of a step, at any
depth; every time limit fits in 64 bits. Whenever the document that was written is read back as the
draft, the text is read as the definition.
-/
namespace Workflow

open Toml

/-! ## Nulls -/

/-- A null occurs in a value. -/
inductive Value.HoldsNull : Value → Prop where
  | null : HoldsNull .null
  | item {items : List Value} {item : Value} (member : item ∈ items) (holds : item.HoldsNull) :
      HoldsNull (.list items)
  | field {fields : List (String × Value)} {key : String} {value : Value}
      (member : (key, value) ∈ fields) (holds : value.HoldsNull) : HoldsNull (.record fields)

mutual

/-- A value cannot be written exactly if a null occurs in it. -/
theorem ofValue?_eq_none_iff : (value : Value) → (Item.ofValue? value = none ↔ value.HoldsNull)
  | .null => ⟨fun _ => .null, fun _ => rfl⟩
  | .bool _ | .text _ | .number (.integer _) | .number (.float _) => by
    constructor
    · intro impossible
      cases impossible
    · intro holds
      cases holds
  | .list items => by
    rw [Item.ofValue?, Option.map_eq_none_iff, itemsOf?_eq_none_iff items]
    constructor
    · rintro ⟨item, member, holds⟩
      exact .item member holds
    · intro holds
      cases holds with
      | item member holds => exact ⟨_, member, holds⟩
  | .record fields => by
    rw [Item.ofValue?, Option.map_eq_none_iff, entriesOf?_eq_none_iff fields]
    constructor
    · rintro ⟨field, member, holds⟩
      exact .field member holds
    · intro holds
      cases holds with
      | field member holds => exact ⟨_, member, holds⟩

/-- Values cannot be written exactly if a null occurs in one of them. -/
theorem itemsOf?_eq_none_iff :
    (items : List Value) → (itemsOf? items = none ↔ ∃ item ∈ items, item.HoldsNull)
  | [] => by simp [itemsOf?]
  | item :: rest => by
    have first := ofValue?_eq_none_iff item
    have others := itemsOf?_eq_none_iff rest
    rw [itemsOf?, List.exists_mem_cons_iff, ← first, ← others]
    cases Item.ofValue? item <;> cases itemsOf? rest <;> simp

/-- Fields cannot be written exactly if a null occurs in one of them. -/
theorem entriesOf?_eq_none_iff : (fields : List (String × Value)) →
    (entriesOf? fields = none ↔ ∃ field ∈ fields, field.2.HoldsNull)
  | [] => by simp [entriesOf?]
  | (key, value) :: rest => by
    have first := ofValue?_eq_none_iff value
    have others := entriesOf?_eq_none_iff rest
    rw [entriesOf?, List.exists_mem_cons_iff, ← first, ← others]
    cases Item.ofValue? value <;> cases entriesOf? rest <;> simp

end

/-- A null occurs in the input or the fallback of a step. -/
def Step.HoldsNull (step : Step) : Prop :=
  (∃ input, step.input = some input ∧ input.HoldsNull) ∨
    ∃ fallback, step.fallback = some fallback ∧ fallback.toValue.HoldsNull

/-- Only a value that holds a null cannot be written as an entry. -/
theorem valueEntry?_eq_none_iff (key : String) (value : Option Value) :
    valueEntry? key value = none ↔ ∃ written, value = some written ∧ written.HoldsNull := by
  cases value with
  | none => simp [ valueEntry?]
  | some written => simp [ valueEntry?, ofValue?_eq_none_iff]

/-- A null occurs in a step exactly if one of its two entries with values cannot be written. -/
theorem Step.holdsNull_iff (step : Step) :
    step.HoldsNull ↔ valueEntry? "input" step.input = none ∨
      valueEntry? "fallback" (step.fallback.map Fallback.toValue) = none := by
  rw [HoldsNull, valueEntry?_eq_none_iff, valueEntry?_eq_none_iff]
  cases step.fallback <;> simp

mutual

/-- A step cannot be written exactly if a null occurs in it or in a step inside it. -/
theorem toItem?_eq_none_iff : (step : Step) →
    (step.draft.toItem? = none ↔ ∃ inner ∈ step.descendants, inner.HoldsNull)
  | { name, kind, action, input, output, condition, timeout, fallback, loopOver, steps } => by
    have inside := stepItems?_eq_none_iff steps
    rw [Step.descendants, List.exists_mem_cons_iff, ← inside, Step.holdsNull_iff, Step.draft,
      StepDraft.toItem?]
    dsimp only
    cases valueEntry? "fallback" (fallback.map Fallback.toValue) <;>
      cases valueEntry? "input" input <;> cases stepItems? (draftsOf steps) <;> simp

/-- Steps cannot be written exactly if a null occurs in one of them or in a step inside one. -/
theorem stepItems?_eq_none_iff : (steps : List Step) →
    (stepItems? (draftsOf steps) = none ↔ ∃ inner ∈ descendantsOf steps, inner.HoldsNull)
  | [] => by simp [draftsOf, stepItems?, descendantsOf]
  | step :: rest => by
    have first := toItem?_eq_none_iff step
    have others := stepItems?_eq_none_iff rest
    rw [draftsOf, stepItems?, descendantsOf]
    simp only [List.mem_append, or_and_right, exists_or]
    rw [← first, ← others]
    cases step.draft.toItem? <;> cases stepItems? (draftsOf rest) <;> simp

end

/-! ## Time limits -/

/-- The time limit of a draft, if there is one, is a number of 64 bits. -/
def StepDraft.Fits (draft : StepDraft) : Prop :=
  ∀ limit, draft.timeout = some limit → limit < 2 ^ 64

/-- What was read from an optional entry was read from some item. -/
theorem item_of_optional {A : Type} {read : Item → Option A} {key : String}
    {entries : List (String × Item)} {value : A}
    (found : optional read key entries = .ok (some value)) : ∃ item, read item = some value := by
  rw [Toml.optional] at found
  split at found
  · cases found
  · split at found
    next item _ _ fits =>
      cases found
      exact ⟨_, fits⟩
    · cases found

/-- A number that is read as a natural one fits 64 bits. -/
theorem natural?_lt {item : Item} {value : Nat} (fits : item.natural? = some value) :
    value < 2 ^ 64 := by
  cases item with
  | integer written =>
    rw [Item.natural?] at fits
    split at fits
    next bounds =>
      obtain ⟨positive, below⟩ := bounds
      have same : written.toNat = value := Option.some.inj fits
      have power : (Nat.pow 2 64 : Int) = 2 ^ 64 := rfl
      omega
    · cases fits
  | _ => cases fits

/-- A draft has the steps inside it that were read, and its time limit is a number of 64 bits. -/
theorem StepDraft.ofEntries_ok {entries : List (String × Item)} {steps : List StepDraft}
    {draft : StepDraft} (read : StepDraft.ofEntries entries steps = .ok draft) :
    draft.steps = steps ∧ draft.Fits := by
  obtain ⟨kind, -, read⟩ := ok_of_bind read
  obtain ⟨name, -, read⟩ := ok_of_bind read
  obtain ⟨action, -, read⟩ := ok_of_bind read
  obtain ⟨output, -, read⟩ := ok_of_bind read
  obtain ⟨condition, -, read⟩ := ok_of_bind read
  obtain ⟨timeout, limited, read⟩ := ok_of_bind read
  obtain ⟨loopOver, -, read⟩ := ok_of_bind read
  obtain ⟨fallback, -, read⟩ := ok_of_bind read
  obtain ⟨input, -, done⟩ := ok_of_bind read
  cases done
  refine ⟨rfl, fun limit same => ?_⟩
  obtain rfl : timeout = some limit := same
  obtain ⟨item, fits⟩ := item_of_optional limited
  exact natural?_lt fits

/-- A draft fits with every draft inside it if the drafts inside it do. -/
theorem StepDraft.fits_of_entries {entries : List (String × Item)} {steps : List StepDraft}
    {draft : StepDraft} (read : StepDraft.ofEntries entries steps = .ok draft)
    (inside : ∀ inner ∈ draftDescendantsOf steps, inner.Fits) :
    ∀ inner ∈ draft.descendants, inner.Fits := by
  obtain ⟨same, fits⟩ := StepDraft.ofEntries_ok read
  intro inner member
  rw [StepDraft.descendants_eq, same] at member
  rcases List.mem_cons.mp member with rfl | deeper
  · exact fits
  · exact inside inner deeper

mutual

/-- A draft that was read from an item has time limits of 64 bits at every depth. -/
theorem StepDraft.ofItem_fits : (item : Item) → ∀ draft, StepDraft.ofItem item = .ok draft →
    ∀ inner ∈ draft.descendants, inner.Fits
  | .table entries => by
    intro draft read
    rw [StepDraft.ofItem] at read
    obtain ⟨steps, inside, read⟩ := ok_of_bind read
    obtain ⟨fields, -, read⟩ := ok_of_bind read
    exact StepDraft.fits_of_entries read (subStepsUnder_fits entries steps inside)
  | .list items => by
    intro draft read
    rw [StepDraft.ofItem] at read
    obtain ⟨steps, inside, read⟩ := ok_of_bind read
    exact StepDraft.fits_of_entries read (subStepsAt_fits _ items steps inside)
  | .text _ | .integer _ | .real _ | .bool _ | .moment _ => by
    intro draft read
    simp [StepDraft.ofItem, throw, throwThe, MonadExceptOf.throw] at read

/-- The drafts that are read from an item hold only numbers that fit. -/
theorem stepDrafts_fits : (item : Item) → ∀ drafts, stepDrafts item = .ok drafts →
    ∀ inner ∈ draftDescendantsOf drafts, inner.Fits
  | .list items => by
    intro drafts read
    rw [stepDrafts] at read
    exact stepDraftsOf_fits items drafts read
  | .table _ | .text _ | .integer _ | .real _ | .bool _ | .moment _ => by
    intro drafts read
    simp [stepDrafts, throw, throwThe, MonadExceptOf.throw] at read

/-- The drafts that are read from the members of a list hold only numbers that fit. -/
theorem stepDraftsOf_fits : (items : List Item) → ∀ drafts, stepDraftsOf items = .ok drafts →
    ∀ inner ∈ draftDescendantsOf drafts, inner.Fits
  | [] => by
    intro drafts read
    cases read
    simp [draftDescendantsOf]
  | item :: rest => by
    intro drafts read
    rw [stepDraftsOf] at read
    obtain ⟨first, firstRead, read⟩ := ok_of_bind read
    obtain ⟨later, laterRead, done⟩ := ok_of_bind read
    cases done
    intro inner member
    rw [draftDescendantsOf] at member
    rcases List.mem_append.mp member with among | among
    · exact StepDraft.ofItem_fits item first firstRead inner among
    · exact stepDraftsOf_fits rest later laterRead inner among

/-- The drafts that are read under the key of the inner steps hold only numbers that fit. -/
theorem subStepsUnder_fits : (entries : List (String × Item)) → ∀ drafts,
    subStepsUnder entries = .ok drafts → ∀ inner ∈ draftDescendantsOf drafts, inner.Fits
  | [] => by
    intro drafts read
    cases read
    simp [draftDescendantsOf]
  | (key, item) :: rest => by
    intro drafts read
    rw [subStepsUnder] at read
    split at read
    · exact stepDrafts_fits item drafts read
    · exact subStepsUnder_fits rest drafts read

/-- The drafts that are read at the place of the inner steps hold only numbers that fit. -/
theorem subStepsAt_fits : (position : Nat) → (items : List Item) → ∀ drafts,
    subStepsAt position items = .ok drafts → ∀ inner ∈ draftDescendantsOf drafts, inner.Fits
  | _, [] => by
    intro drafts read
    rw [subStepsAt] at read
    cases read
    simp [draftDescendantsOf]
  | 0, item :: _ => by
    intro drafts read
    rw [subStepsAt] at read
    exact stepDrafts_fits item drafts read
  | position + 1, _ :: rest => by
    intro drafts read
    rw [subStepsAt] at read
    exact subStepsAt_fits position rest drafts read

end

/-- The drafts of a list of a document hold only numbers that fit. -/
theorem stepsUnder_fits {key : String} {document : Document} {drafts : List StepDraft}
    (read : stepsUnder key document = .ok drafts) :
    ∀ inner ∈ draftDescendantsOf drafts, inner.Fits := by
  rw [stepsUnder] at read
  split at read
  next item _ => exact stepDrafts_fits item drafts read
  · cases read
    simp [draftDescendantsOf]

/-- All time limits of a draft that was read from a document are numbers of 64 bits. -/
theorem Draft.ofDocument_fits {document : Document} {draft : Draft}
    (read : Draft.ofDocument document = .ok draft) : ∀ step ∈ draft.allSteps, step.Fits := by
  obtain ⟨description, -, read⟩ := ok_of_bind read
  obtain ⟨entries, -, read⟩ := ok_of_bind read
  have rest : ∃ trigger : Trigger, (do
      let name ← required Item.text? "name" entries
      let description ← optional Item.text? "description" entries
      let version ← optional Item.text? "version" entries
      let steps ← stepsUnder "steps" document
      let onComplete ← stepsUnder "on_complete" document
      let onError ← stepsUnder "on_error" document
      return (⟨name, description, version, trigger, steps, onComplete, onError⟩ : Draft)) =
        Except.ok draft := by
    dsimp only at read
    split at read
    · obtain ⟨trigger, -, read⟩ := ok_of_bind read
      exact ⟨trigger, read⟩
    · exact ⟨.manual, read⟩
  obtain ⟨trigger, rest⟩ := rest
  obtain ⟨name, -, rest⟩ := ok_of_bind rest
  obtain ⟨_, -, rest⟩ := ok_of_bind rest
  obtain ⟨version, -, rest⟩ := ok_of_bind rest
  obtain ⟨steps, main, rest⟩ := ok_of_bind rest
  obtain ⟨onComplete, ending, rest⟩ := ok_of_bind rest
  obtain ⟨onError, failure, done⟩ := ok_of_bind rest
  cases done
  intro step member
  simp only [Draft.allSteps, draftDescendantsOf_append, List.mem_append] at member
  rcases member with (among | among) | among
  · exact stepsUnder_fits main step among
  · exact stepsUnder_fits failure step among
  · exact stepsUnder_fits ending step among

/-! ## Writing and reading again -/

/-- A definition has no document exactly if a null occurs in one of its steps, at any depth. -/
theorem Definition.toDocument?_eq_none_iff (definition : Definition) :
    definition.draft.toDocument? = none ↔ ∃ step ∈ definition.allSteps, step.HoldsNull := by
  have main := stepItems?_eq_none_iff definition.steps
  have ending := stepItems?_eq_none_iff definition.onComplete
  have failure := stepItems?_eq_none_iff definition.onError
  simp only [mem_allSteps, or_and_right, exists_or, ← main, ← ending, ← failure]
  rw [Draft.toDocument?, draft]
  dsimp only
  cases stepItems? (draftsOf definition.steps) <;>
    cases stepItems? (draftsOf definition.onComplete) <;>
      cases stepItems? (draftsOf definition.onError) <;> simp

/-- A definition that was read has limits of 64 bits, and its draft describes it. -/
theorem Definition.draft_of_text {text : String} {definition : Definition}
    (read : Definition.ofText text = .ok definition) :
    definition.draft.validate = .ok definition ∧ ∀ step ∈ definition.allSteps,
      ∀ limit, step.timeout = some limit → limit < 2 ^ 64 := by
  obtain ⟨document, -, read⟩ := ok_of_bind read
  obtain ⟨draft, drafted, read⟩ := ok_of_bind read
  have describes := Draft.validate_iff.mp (ok_of_mapError read)
  have fits := Draft.ofDocument_fits (ok_of_mapError drafted)
  refine ⟨Draft.validate_iff.mpr describes.again, ?_⟩
  intro step member limit limited
  obtain ⟨origin, among, same⟩ := describes.origin step member
  rw [same.timeout] at limited
  exact fits origin among limit limited

/-- A text whose document has the draft of a definition is read as what the draft describes. -/
theorem Definition.ofText_of_draft {written : String} {draft : Draft} {definition : Definition}
    (readBack : (Document.ofText written >>= Draft.ofDocument) = .ok draft)
    (valid : draft.validate = .ok definition) : Definition.ofText written = .ok definition := by
  obtain ⟨document, parsed, drafted⟩ := ok_of_bind readBack
  simp only [ofText, parsed, drafted, valid, Except.mapError, bind, Except.bind]

/-- A definition that was read from a text is described by its draft, with all that it holds; its
time limits are numbers of 64 bits. It cannot be written exactly if a null occurs in an input or a
fallback of one of its steps. Otherwise it has a text, and as long as the text is read back as the
draft that was written, it is read as the same definition. -/
theorem Definition.read_again {text : String} {definition : Definition}
    (read : Definition.ofText text = .ok definition) :
    definition.draft.validate = .ok definition ∧
    (∀ step ∈ definition.allSteps, ∀ limit, step.timeout = some limit → limit < 2 ^ 64) ∧
    ((∃ error, definition.text = .error error) ↔
      ∃ step ∈ definition.allSteps, step.HoldsNull) ∧
    ∀ written, definition.text = .ok written →
      (Document.ofText written >>= Draft.ofDocument) = .ok definition.draft →
      Definition.ofText written = .ok definition := by
  obtain ⟨valid, fits⟩ := Definition.draft_of_text read
  refine ⟨valid, fits, ?_, fun written _ readBack => Definition.ofText_of_draft readBack valid⟩
  rw [← definition.toDocument?_eq_none_iff, Definition.text]
  cases definition.draft.toDocument? <;> simp

/-! ## A review inside a group -/

mutual

/-- Whether two drafts are the same. -/
def StepDraft.decideEq : (left right : StepDraft) → Decidable (left = right)
  | { name, kind, action, output, condition, timeout, loopOver, fallback, input, steps },
    { name := name', kind := kind', action := action', output := output', condition := condition',
      timeout := timeout', loopOver := loopOver', fallback := fallback', input := input',
      steps := steps' } =>
    match decideDraftsEq steps steps' with
    | isTrue same => decidable_of_iff
        (name = name' ∧ kind = kind' ∧ action = action' ∧ output = output' ∧
          condition = condition' ∧ timeout = timeout' ∧ loopOver = loopOver' ∧
          fallback = fallback' ∧ input = input')
        (by simp [same])
    | isFalse differ => isFalse (by simp [differ])

/-- Whether two lists of drafts are the same. -/
def decideDraftsEq : (left right : List StepDraft) → Decidable (left = right)
  | [], [] => isTrue rfl
  | [], _ :: _ | _ :: _, [] => isFalse (by simp)
  | left :: lefts, right :: rights =>
    match left.decideEq right, decideDraftsEq lefts rights with
    | isTrue same, isTrue rest => isTrue (by rw [same, rest])
    | isFalse differ, _ => isFalse (by simp [differ])
    | _, isFalse differ => isFalse (by simp [differ])

end

instance : DecidableEq StepDraft := StepDraft.decideEq

deriving instance DecidableEq for Draft

/-- A workflow whose name has blanks around it, with a review inside a group. -/
def nestedText : String := "[workflow]
name = \" w \"
[[steps]]
name = \"a\"
type = \"parallel\"
[[steps.steps]]
name = \"b\"
type = \"human_in_loop\"
fallback = \"auto_approve\"
"

/-- What the text describes. -/
def nested : Definition where
  name := "w"
  description := none
  version := none
  trigger := .manual
  steps := [⟨"a", .parallel, none, none, none, none, none, none, none,
    [⟨"b", .humanInLoop, none, none, none, none, none, some .autoApprove, none, []⟩]⟩]
  onComplete := []
  onError := []

/-- The text as which the workflow is written. -/
def nestedWritten : String := nested.text.toOption.getD ""

-- The characters of the text are one term, as deep as the text is long.
set_option maxRecDepth 2000 in
/-- The nested workflow is what its text is read as. -/
theorem nested_read : Definition.ofText nestedText = .ok nested :=
  (Definition.ofText_spelled rfl).trans (by decide +kernel)

/-- The nested workflow can be written. -/
theorem nested_written : nested.text = .ok nestedWritten := by decide +kernel

/-- What was written is read as the draft that was written. -/
theorem nested_readBack :
    (Document.ofText nestedWritten >>= Draft.ofDocument) = .ok nested.draft := by decide +kernel

/-- A workflow with a review inside a group is written and read again as it is. -/
theorem nested_read_again : Definition.ofText nestedText = .ok nested ∧
    nested.text = .ok nestedWritten ∧ Definition.ofText nestedWritten = .ok nested := by
  have again := (Definition.read_again nested_read).2.2.2
  exact ⟨nested_read, nested_written, again nestedWritten nested_written nested_readBack⟩

end Workflow
