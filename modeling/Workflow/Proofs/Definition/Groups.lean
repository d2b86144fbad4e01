import Mathlib.Data.List.Nodup
import Workflow.Execution.Group
import Workflow.Proofs.Definition.Accepted

/-!
# Human steps inside groups

Steps of one list have distinct names, but the steps inside two groups of the list may share one.
When the members of a batch are kept apart, no two of them have human steps of one name inside,
however deep: then the name of a human step tells which step has made a request.
-/
namespace Workflow

/-! ## Batches -/

/-- A batch consists of items in their order. -/
theorem sublist_of_mem_batches {Item : Type} (size : Nat) (items : List Item) :
    ∀ batch ∈ batches size items, batch.Sublist items := by
  fun_induction batches size items with
  | case1 => simp
  | case2 item rest ih =>
    intro batch member
    rcases List.mem_cons.mp member with rfl | later
    · exact (List.take_sublist (size - 1) rest).cons_cons item
    · exact ((ih batch later).trans (List.drop_sublist (size - 1) rest)).cons item

/-- The batches of changed items are the changed batches of the items. -/
theorem batches_map {Item Other : Type} (size : Nat) (change : Item → Other) (items : List Item) :
    batches size (items.map change) = (batches size items).map (List.map change) := by
  fun_induction batches size items with
  | case1 => simp [batches]
  | case2 item rest ih =>
    rw [List.map_cons, batches, List.map_cons, List.map_cons, List.map_take, ← List.map_drop, ih]

/-- Items that fit into one batch are one batch. -/
theorem batches_of_length_le {Item : Type} {size : Nat} {items : List Item} (some : items ≠ [])
    (fits : items.length ≤ size) : batches size items = [items] := by
  cases items with
  | nil => exact absurd rfl some
  | cons item rest =>
    have restFits : rest.length ≤ size - 1 := by
      rw [List.length_cons] at fits
      omega
    rw [batches, List.take_of_length_le restFits, List.drop_of_length_le restFits, batches]

/-! ## Names of human steps -/

/-- The names of the human steps among a step and those inside it. -/
def Step.reviews (step : Step) : List String :=
  (step.descendants.filter (·.kind = .humanInLoop)).map Step.name

/-- The reviews of a step are the names of its descendants that ask humans. -/
theorem Step.mem_reviews {step : Step} {name : String} :
    name ∈ step.reviews ↔
      ∃ inner ∈ step.descendants, inner.kind = .humanInLoop ∧ inner.name = name := by
  simp [reviews, and_assoc]

/-- Every step is among its own descendants. -/
theorem Step.mem_descendants_self (step : Step) : step ∈ step.descendants := by
  rw [descendants_eq]
  exact List.mem_cons_self

mutual

/-- The steps inside a step at some depth are at the next depth. -/
theorem Step.mem_descendants_of_inside {step group member : Step}
    (known : group ∈ step.descendants) (inside : member ∈ group.steps) :
    member ∈ step.descendants := by
  obtain ⟨name, kind, action, input, output, condition, timeout, fallback, loopOver, steps⟩ := step
  rw [Step.descendants_eq] at known ⊢
  apply List.mem_cons_of_mem
  rcases List.mem_cons.mp known with rfl | deeper
  · exact mem_descendantsOf.mpr ⟨member, inside, member.mem_descendants_self⟩
  · exact mem_descendantsOf_of_inside deeper inside

/-- The steps inside a step at some depth of a list are at the next depth. -/
theorem mem_descendantsOf_of_inside {steps : List Step} {group member : Step}
    (known : group ∈ descendantsOf steps) (inside : member ∈ group.steps) :
    member ∈ descendantsOf steps := by
  cases steps with
  | nil => cases known
  | cons step rest =>
    rw [descendantsOf] at known ⊢
    rcases List.mem_append.mp known with first | later
    · exact List.mem_append_left _ (Step.mem_descendants_of_inside first inside)
    · exact List.mem_append_right _ (mem_descendantsOf_of_inside later inside)

end

/-- What is inside a member of a group is inside the group. -/
theorem Step.descendants_subset {group member : Step} (inside : member ∈ group.steps) :
    member.descendants ⊆ group.descendants := by
  intro inner deeper
  rw [descendants_eq group]
  exact List.mem_cons_of_mem group (mem_descendantsOf.mpr ⟨member, inside, deeper⟩)

/-- The human steps inside a member of a group are inside the group. -/
theorem Step.reviews_subset {group member : Step} (inside : member ∈ group.steps) :
    member.reviews ⊆ group.reviews := by
  intro name named
  obtain ⟨inner, deeper, fits⟩ := mem_reviews.mp named
  exact mem_reviews.mpr ⟨inner, descendants_subset inside deeper, fits⟩

/-- A step without steps inside it has at most its own name. -/
theorem Step.eq_name_of_mem_reviews {step : Step} (leaf : step.steps = []) {name : String}
    (named : name ∈ step.reviews) : name = step.name := by
  obtain ⟨inner, deeper, -, rfl⟩ := mem_reviews.mp named
  rw [descendants_eq, leaf, descendantsOf, List.mem_singleton] at deeper
  rw [deeper]

/-! ## Groups that are kept apart -/

/-- No human step inside a step has the name of one inside another step. -/
def Step.ApartFrom (first second : Step) : Prop := ∀ name ∈ first.reviews, name ∉ second.reviews

instance (first second : Step) : Decidable (first.ApartFrom second) :=
  inferInstanceAs (Decidable (∀ name ∈ first.reviews, name ∉ second.reviews))

/-- A group in a batch shares no name of a human step inside it with the rest of its batch. -/
def Definition.NestsApart (definition : Definition) (size : Nat) : Prop :=
  ∀ group ∈ definition.allSteps, ∀ batch ∈ batches size group.steps,
    batch.Pairwise fun first second =>
      first.kind = .parallel ∨ second.kind = .parallel → first.ApartFrom second

instance (definition : Definition) (size : Nat) : Decidable (definition.NestsApart size) :=
  inferInstanceAs (Decidable (∀ group ∈ definition.allSteps, ∀ batch ∈ batches size group.steps,
    batch.Pairwise fun first second =>
      first.kind = .parallel ∨ second.kind = .parallel → first.ApartFrom second))

/-- Where no group is inside another one there is nothing to keep apart. -/
theorem Definition.NestsApart.of_flat {definition : Definition}
    (flat : ∀ group ∈ definition.allSteps, ∀ member ∈ group.steps, member.kind ≠ .parallel)
    (size : Nat) : definition.NestsApart size := by
  intro group inside batch cut
  have members := (sublist_of_mem_batches size group.steps batch cut).subset
  refine List.pairwise_of_forall_mem_list fun first firstIn second secondIn nested => ?_
  rcases nested with nested | nested
  · exact absurd nested (flat group inside first (members firstIn))
  · exact absurd nested (flat group inside second (members secondIn))

/-- The steps inside a step of a definition are steps of the definition. -/
theorem Definition.mem_allSteps_of_inside {definition : Definition} {group member : Step}
    (known : group ∈ definition.allSteps) (inside : member ∈ group.steps) :
    member ∈ definition.allSteps := mem_descendantsOf_of_inside known inside

/-- In an accepted definition whose groups nest apart the members of every batch are kept apart. -/
theorem Definition.NestsApart.batch_apart {definition : Definition} {size : Nat}
    (apart : definition.NestsApart size)
    (accepted : ∀ step ∈ definition.allSteps, step.Accepted) {group : Step}
    (known : group ∈ definition.allSteps) {batch : List Step}
    (cut : batch ∈ batches size group.steps) : batch.Pairwise Step.ApartFrom := by
  have sublist := sublist_of_mem_batches size group.steps batch cut
  have distinct : batch.Pairwise fun first second => first.name ≠ second.name :=
    List.pairwise_map.mp ((accepted group known).distinct.sublist (sublist.map Step.name))
  have leaf : ∀ member ∈ batch, member.kind ≠ .parallel → member.steps = [] := fun member inside =>
    (accepted member (mem_allSteps_of_inside known (sublist.subset inside))).leaf
  refine (distinct.and (apart group known batch cut)).imp_of_mem ?_
  intro first second firstIn secondIn ⟨named, nested⟩
  by_cases group : first.kind = .parallel ∨ second.kind = .parallel
  · exact nested group
  · -- Two steps that are no groups have at most their own names, and these are distinct.
    rw [not_or] at group
    intro name inFirst inSecond
    have own := Step.eq_name_of_mem_reviews (leaf first firstIn group.1) inFirst
    have other := Step.eq_name_of_mem_reviews (leaf second secondIn group.2) inSecond
    exact named (own.symm.trans other)

end Workflow
