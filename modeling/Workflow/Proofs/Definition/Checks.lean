import Workflow.Definition.Document

/-!
# Reading and checking

Reading a definition and checking it are done in parts, one after the other, and there is a result
only if every part has one. Steps are spoken of at every depth: a step, and the steps inside it.
-/
namespace Workflow

/-! ## One part after the other -/

/-- Two things done one after the other have a result only if both have one. -/
theorem ok_of_bind {Error First Second : Type} {first : Except Error First}
    {next : First → Except Error Second} {result : Second} (done : first >>= next = .ok result) :
    ∃ value, first = .ok value ∧ next value = .ok result := by
  cases first with
  | error error => exact absurd done (by simp [bind, Except.bind])
  | ok value => exact ⟨value, rfl, done⟩

/-- A check that must not apply was passed if there is a result. -/
theorem ok_of_guard {Error Result : Type} {condition : Prop} [Decidable condition]
    {error : Error} {next : Unit → Except Error Result} {result : Result}
    (done : (if condition then throw error >>= next else next ()) = .ok result) :
    ¬condition ∧ next () = .ok result := by
  by_cases holds : condition
  · rw [if_pos holds] at done
    exact absurd done (by simp [throw, throwThe, MonadExceptOf.throw, bind, Except.bind])
  · rw [if_neg holds] at done
    exact ⟨holds, done⟩

/-- Changing the error of a failure gives no result where there was none. -/
theorem ok_of_mapError {Error Other Result : Type} {change : Error → Other}
    {done : Except Error Result} {result : Result} (changed : done.mapError change = .ok result) :
    done = .ok result := by
  cases done with
  | error error => cases changed
  | ok value =>
    cases changed
    rfl

/-! ## Names -/

/-- No name is found for a second time exactly if the names are distinct and none has been seen. -/
theorem firstRepeated?_eq_none (seen names : List String) :
    firstRepeated? seen names = none ↔ names.Nodup ∧ ∀ name ∈ names, name ∉ seen := by
  induction names generalizing seen with
  | nil => simp [firstRepeated?]
  | cons name rest ih =>
    rw [firstRepeated?]
    by_cases known : name ∈ seen
    · rw [if_pos known]
      constructor
      · intro impossible
        cases impossible
      · rintro ⟨-, unseen⟩
        exact absurd known (unseen name List.mem_cons_self)
    · rw [if_neg known, ih, List.nodup_cons]
      constructor
      · rintro ⟨distinct, unseen⟩
        refine ⟨⟨fun later => unseen name later List.mem_cons_self, distinct⟩, ?_⟩
        intro other member
        rcases List.mem_cons.mp member with rfl | later
        · exact known
        · exact fun seenBefore => unseen other later (List.mem_cons_of_mem name seenBefore)
      · rintro ⟨⟨fresh, distinct⟩, unseen⟩
        refine ⟨distinct, fun other later repeated => ?_⟩
        rcases List.mem_cons.mp repeated with rfl | seenBefore
        · exact fresh later
        · exact unseen other (List.mem_cons_of_mem name later) seenBefore

/-- A list of steps is not refused only if their names are distinct. -/
theorem ensureDistinct_ok {scope : StepScope} {steps : List Step}
    (accepted : ensureDistinct scope steps = .ok ()) : (steps.map Step.name).Nodup := by
  rw [ensureDistinct] at accepted
  split at accepted
  · cases accepted
  next none => exact ((firstRepeated?_eq_none [] _).mp none).1

/-- Drafts one after another describe steps one after another. -/
theorem validateSteps_cons {draft : StepDraft} {rest : List StepDraft} {steps : List Step}
    (valid : validateSteps (draft :: rest) = .ok steps) :
    ∃ step later, draft.validate = .ok step ∧ validateSteps rest = .ok later ∧
      steps = step :: later := by
  rw [validateSteps] at valid
  obtain ⟨step, stepValid, valid⟩ := ok_of_bind valid
  obtain ⟨later, restValid, done⟩ := ok_of_bind valid
  cases done
  exact ⟨step, later, stepValid, restValid, rfl⟩

/-- Drafts describe as many steps as they are. -/
theorem length_validateSteps {drafts : List StepDraft} {steps : List Step}
    (valid : validateSteps drafts = .ok steps) : steps.length = drafts.length := by
  induction drafts generalizing steps with
  | nil =>
    cases valid
    rfl
  | cons draft rest ih =>
    obtain ⟨step, later, -, restValid, rfl⟩ := validateSteps_cons valid
    rw [List.length_cons, ih restValid, List.length_cons]

/-! ## Steps at every depth -/

/-- The descendants of a list of steps are those of its members. -/
theorem mem_descendantsOf {inner : Step} {steps : List Step} :
    inner ∈ descendantsOf steps ↔ ∃ step ∈ steps, inner ∈ step.descendants := by
  induction steps with
  | nil => simp [descendantsOf]
  | cons step rest ih => simp [descendantsOf, ih]

/-- The descendants of a step are itself and those of the steps inside it. -/
theorem Step.descendants_eq (step : Step) :
    step.descendants = step :: descendantsOf step.steps := by
  cases step
  rw [Step.descendants]

/-- A step at any depth of a definition is one of the main steps or of the others. -/
theorem Definition.mem_allSteps {definition : Definition} {inner : Step} :
    inner ∈ definition.allSteps ↔ inner ∈ descendantsOf definition.steps ∨
      inner ∈ descendantsOf definition.onError ∨ inner ∈ descendantsOf definition.onComplete := by
  simp only [allSteps, mem_descendantsOf, List.mem_append, or_and_right, exists_or, or_assoc]

/-! ## Texts whose characters are known -/

open Toml

/-- The tokens of the characters of a document. -/
def Toml.Token.ofCharacters? (characters : List Char) : Option (List Token) := do
  let characters := match characters with
    | '\uFEFF' :: rest => rest
    | characters => characters
  let scan ← characters.foldlM Scan.step? ⟨.between, []⟩
  let tokens ← scan.finish?
  some (joinMoments tokens)

/-- A document that is written out as a list of characters is read from these characters. -/
theorem Toml.Token.ofDocument?_ofList (characters : List Char) :
    Token.ofDocument? (String.ofList characters) = Token.ofCharacters? characters := by
  rw [Token.ofDocument?, String.toList_ofList]
  rfl

/-- A text is read from its characters where they are known. To evaluate the reading of a text that
is written out takes little time in this form: taking the text apart, which would take long, is
left out. -/
theorem Definition.ofText_spelled {text : String} {characters : List Char}
    (spelled : text = String.ofList characters) :
    Definition.ofText text = (do
      let tokens := Token.ofCharacters? characters
      let document ← (tokens.elim (.error .character) Document.ofTokens).mapError .malformed
      let draft ← (Draft.ofDocument document).mapError .malformed
      draft.validate.mapError .invalid) := by
  rw [Definition.ofText, Document.ofText, spelled, Token.ofDocument?_ofList]
  cases Token.ofCharacters? characters <;> rfl

end Workflow
