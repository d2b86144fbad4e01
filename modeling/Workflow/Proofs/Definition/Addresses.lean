import Mathlib.Data.List.Basic
import Workflow.Proofs.Definition.Accepted

/-!
# Addresses of steps

The steps inside a step form a tree, and a definition holds three lists of such trees. The address
of a step says which way leads to it: the list, the position in the list, and then one position for
each group on the way. `Definition.allSteps` lists exactly the steps that have an address
(`Definition.mem_allSteps_iff`), in the lexicographic order of their addresses, in which a group
comes before what is inside it: the first step of the list with some property is the one whose
address is least (`Definition.first_of_find?`).
-/
namespace Workflow

/-- The step at an address inside a step, which itself has the empty address. -/
def Step.at? : List Nat → Step → Option Step
  | [], step => some step
  | position :: inner, step => step.steps[position]?.bind (Step.at? inner)

/-- The step at an address inside a list: a position in the list, then the way inside it. -/
def stepAt? (steps : List Step) : List Nat → Option Step
  | [] => none
  | position :: inner => steps[position]?.bind (Step.at? inner)

/-- The step at an address inside lists: the number of a list, then an address inside it. -/
def stepOfListsAt? (lists : List (List Step)) : List Nat → Option Step
  | [] => none
  | number :: inner => lists[number]?.bind (stepAt? · inner)

/-- The step at an address of a definition, the main steps being the first list, those after a
failure the second and those at the end the third. -/
def Definition.stepAt? (definition : Definition) : List Nat → Option Step :=
  stepOfListsAt? [definition.steps, definition.onError, definition.onComplete]

/-- A step has a property and no step at a smaller address has it. -/
def IsFirst (at? : List Nat → Option Step) (property : Step → Prop) (step : Step) : Prop :=
  ∃ address, at? address = some step ∧ property step ∧
    ∀ earlier < address, ∀ other, at? earlier = some other → ¬property other

/-! ## Trees beside each other -/

/-- What addresses lead to lies in the first of several branches, or in the others, in which the
positions are smaller by one. -/
structure Forks (whole first others : List Nat → Option Step) : Prop where
  root : whole [] = none
  bare : others [] = none
  left (inner : List Nat) : whole (0 :: inner) = first inner
  right (position : Nat) (inner : List Nat) :
    whole ((position + 1) :: inner) = others (position :: inner)

section

variable {whole first others : List Nat → Option Step}

/-- What has an address has one in the first branch or in another. -/
theorem Forks.exists_iff (forks : Forks whole first others) {step : Step} :
    (∃ address, whole address = some step) ↔
      (∃ address, first address = some step) ∨ ∃ address, others address = some step := by
  constructor
  · rintro ⟨address, found⟩
    match address with
    | [] => rw [forks.root] at found; cases found
    | 0 :: inner => exact .inl ⟨inner, by rwa [forks.left] at found⟩
    | (position + 1) :: inner => exact .inr ⟨position :: inner, by rwa [forks.right] at found⟩
  · rintro (⟨address, found⟩ | ⟨address, found⟩)
    · exact ⟨0 :: address, by rwa [forks.left]⟩
    · cases address with
      | nil => rw [forks.bare] at found; cases found
      | cons position inner => exact ⟨(position + 1) :: inner, by rwa [forks.right]⟩

/-- The first step in the first branch is the first of all. -/
theorem Forks.head (forks : Forks whole first others) {property : Step → Prop} {step : Step}
    (least : IsFirst first property step) : IsFirst whole property step := by
  obtain ⟨address, here, holds, fresh⟩ := least
  refine ⟨0 :: address, by rwa [forks.left], holds, fun earlier before other there => ?_⟩
  match earlier with
  | [] => rw [forks.root] at there; cases there
  | 0 :: inner =>
    rw [forks.left] at there
    have inside : inner < address := by simpa [List.cons_lt_cons_iff] using before
    exact fresh inner inside other there
  | (position + 1) :: inner => simp [List.cons_lt_cons_iff] at before

/-- The first step in the other branches is the first of all if nothing in the first branch has the
property. -/
theorem Forks.tail (forks : Forks whole first others) {property : Step → Prop} {step : Step}
    (least : IsFirst others property step)
    (clear : ∀ address inner, first address = some inner → ¬property inner) :
    IsFirst whole property step := by
  obtain ⟨address, here, holds, fresh⟩ := least
  cases address with
  | nil => rw [forks.bare] at here; cases here
  | cons position way =>
    refine ⟨(position + 1) :: way, by rwa [forks.right], holds,
      fun earlier before other there => ?_⟩
    match earlier with
    | [] => rw [forks.root] at there; cases there
    | 0 :: inner =>
      rw [forks.left] at there
      exact clear inner other there
    | (place + 1) :: inner =>
      rw [forks.right] at there
      have inside : place :: inner < position :: way := by
        simpa [List.cons_lt_cons_iff] using before
      exact fresh _ inside other there

end

/-- A place in a list of steps is in the first step or in the others. -/
theorem forks_stepAt? (step : Step) (rest : List Step) :
    Forks (stepAt? (step :: rest)) (Step.at? · step) (stepAt? rest) :=
  ⟨rfl, rfl, fun _ => rfl, fun _ _ => rfl⟩

/-- A place in several lists of steps is in the first list or in the others. -/
theorem forks_stepOfListsAt? (steps : List Step) (rest : List (List Step)) :
    Forks (stepOfListsAt? (steps :: rest)) (stepAt? steps) (stepOfListsAt? rest) :=
  ⟨rfl, rfl, fun _ => rfl, fun _ _ => rfl⟩

/-! ## Which steps have an address -/

mutual

/-- A step and the steps inside it are those that have an address. -/
theorem Step.mem_descendants_iff {inner : Step} (step : Step) :
    inner ∈ step.descendants ↔ ∃ address, step.at? address = some inner := by
  obtain ⟨name, kind, action, input, output, condition, timeout, fallback, loopOver, steps⟩ := step
  rw [Step.descendants, List.mem_cons, mem_descendantsOf_iff steps]
  constructor
  · rintro (rfl | ⟨address, found⟩)
    · exact ⟨[], rfl⟩
    · cases address with
      | nil => cases found
      | cons position inner => exact ⟨position :: inner, found⟩
  · rintro ⟨address, found⟩
    cases address with
    | nil =>
      cases found
      exact .inl rfl
    | cons position inner => exact .inr ⟨position :: inner, found⟩

/-- Steps and the steps inside them are those that have an address. -/
theorem mem_descendantsOf_iff {inner : Step} (steps : List Step) :
    inner ∈ descendantsOf steps ↔ ∃ address, stepAt? steps address = some inner := by
  cases steps with
  | nil =>
    rw [descendantsOf]
    constructor
    · intro impossible
      exact absurd impossible List.not_mem_nil
    · rintro ⟨address, found⟩
      cases address <;> cases found
  | cons step rest =>
    rw [descendantsOf, List.mem_append, Step.mem_descendants_iff step, mem_descendantsOf_iff rest,
      (forks_stepAt? step rest).exists_iff]

end

/-- All steps of a definition are those that have an address. -/
theorem Definition.mem_allSteps_iff {definition : Definition} {inner : Step} :
    inner ∈ definition.allSteps ↔ ∃ address, definition.stepAt? address = some inner := by
  have none : ¬∃ address, stepOfListsAt? [] address = some inner := by
    rintro ⟨address, found⟩
    cases address <;> cases found
  rw [Definition.mem_allSteps, Definition.stepAt?, mem_descendantsOf_iff, mem_descendantsOf_iff,
    mem_descendantsOf_iff, (forks_stepOfListsAt? _ _).exists_iff,
    (forks_stepOfListsAt? _ _).exists_iff, (forks_stepOfListsAt? _ _).exists_iff, or_iff_left none]

/-! ## Which step comes first -/

mutual

/-- The first step that is found inside a step has the least address. -/
theorem Step.first_of_find? {test : Step → Bool} {found : Step} (step : Step)
    (find : step.descendants.find? test = some found) :
    IsFirst (Step.at? · step) (test · = true) found := by
  obtain ⟨name, kind, action, input, output, condition, timeout, fallback, loopOver, steps⟩ := step
  rw [Step.descendants] at find
  rcases List.find?_cons_eq_some.mp find with ⟨holds, rfl⟩ | ⟨fails, later⟩
  · exact ⟨[], rfl, holds, fun earlier before => absurd before (List.not_lt_nil earlier)⟩
  · obtain ⟨address, here, holds, fresh⟩ := first_of_find?_descendantsOf steps later
    cases address with
    | nil => cases here
    | cons position way =>
      refine ⟨position :: way, here, holds, fun earlier before other there => ?_⟩
      cases earlier with
      | nil =>
        cases there
        simpa using fails
      | cons place inner => exact fresh (place :: inner) before other there

/-- The first step that is found inside some steps has the least address. -/
theorem first_of_find?_descendantsOf {test : Step → Bool} {found : Step} (steps : List Step)
    (find : (descendantsOf steps).find? test = some found) :
    IsFirst (stepAt? steps) (test · = true) found := by
  cases steps with
  | nil => cases find
  | cons step rest =>
    have forks := forks_stepAt? step rest
    rw [descendantsOf, List.find?_append, Option.or_eq_some_iff] at find
    rcases find with here | ⟨clear, later⟩
    · exact forks.head (Step.first_of_find? step here)
    · refine forks.tail (first_of_find?_descendantsOf rest later) fun address inner there => ?_
      exact List.find?_eq_none.mp clear inner ((Step.mem_descendants_iff step).mpr ⟨address, there⟩)

end

/-- The first step that is found inside lists of steps has the least address. -/
theorem first_of_find?_lists {test : Step → Bool} {found : Step} (lists : List (List Step))
    (find : (lists.flatMap descendantsOf).find? test = some found) :
    IsFirst (stepOfListsAt? lists) (test · = true) found := by
  induction lists with
  | nil => cases find
  | cons steps rest ih =>
    have forks := forks_stepOfListsAt? steps rest
    rw [List.flatMap_cons, List.find?_append, Option.or_eq_some_iff] at find
    rcases find with here | ⟨clear, later⟩
    · exact forks.head (first_of_find?_descendantsOf steps here)
    · refine forks.tail (ih later) fun address inner there => ?_
      exact List.find?_eq_none.mp clear inner ((mem_descendantsOf_iff steps).mpr ⟨address, there⟩)

/-- The descendants of two lists are those of the first, then those of the second. -/
theorem descendantsOf_append (first second : List Step) :
    descendantsOf (first ++ second) = descendantsOf first ++ descendantsOf second := by
  induction first with
  | nil => rfl
  | cons step rest ih =>
    rw [List.cons_append, descendantsOf, ih, descendantsOf, List.append_assoc]

/-- The first step of a definition that is found has the least address. -/
theorem Definition.first_of_find? {definition : Definition} {test : Step → Bool} {found : Step}
    (find : definition.allSteps.find? test = some found) :
    IsFirst definition.stepAt? (test · = true) found := by
  rw [Definition.allSteps, descendantsOf_append, descendantsOf_append] at find
  exact first_of_find?_lists _ (by simpa using find)

end Workflow
