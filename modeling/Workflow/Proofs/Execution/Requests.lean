import Workflow.Execution.Custom
import Workflow.Proofs.Definition.Groups
import Workflow.Proofs.Execution.Executors

/-!
# Which requests a step makes

The process of a step asks humans only in human steps inside it. Where the members of every batch
are kept apart, no two processes that run side by side ask in steps of one name.
-/
namespace Workflow

/-! ## Calls of actions -/

/-- A process that calls actions and does nothing else: it asks nobody, and it runs no processes
side by side. -/
inductive Process.OnlyCalls : Process → Prop where
  | settle (outcome : Outcome) : OnlyCalls (.settle outcome)
  | warn {next : Process} (warning : Warning) (later : next.OnlyCalls) :
      OnlyCalls (.warn warning next)
  | lookUp {next : Option Registration → Process} (action : String)
      (later : ∀ found, (next found).OnlyCalls) : OnlyCalls (.lookUp action next)
  | call {next : CallEnd → Process} (registration : Registration) (input : Value)
      (limit : Option Nat) (later : ∀ callEnd, (next callEnd).OnlyCalls) :
      OnlyCalls (.call registration input limit next)

namespace Process.OnlyCalls

/-- A warning is no request. -/
theorem warnSome (warning : Option Warning) {next : Process} (later : next.OnlyCalls) :
    (Process.warnSome warning next).OnlyCalls := by
  cases warning with
  | none => exact later
  | some warning => exact .warn warning later

/-- A call makes no request if what follows it makes none. -/
theorem callOnce (step : Step) (action : String) (registration : Registration)
    (limit : Option Nat) (input : Value) {next : CallResult → Process}
    (later : ∀ result, (next result).OnlyCalls) :
    (callOnce step action registration limit input next).OnlyCalls := by
  refine .call registration input limit fun callEnd => ?_
  rcases callEnd with (error | value) | _
  · exact later _
  · exact later _
  · exact warnSome _ (later _)

/-- The calls for each of the items make no request. -/
theorem callForEach (step : Step) (action : String) (registration : Registration)
    (limit : Option Nat) (context : Context) (reversed items : List Value) :
    (callForEach step action registration limit context reversed items).OnlyCalls := by
  induction items generalizing reversed with
  | nil => exact .settle _
  | cons item rest ih =>
    refine callOnce step action registration limit _ fun result => ?_
    cases result with
    | error error => exact .settle _
    | ok value => exact ih (value :: reversed)

/-- A step that calls an action does nothing else. -/
theorem callAction (usualLimit : Option Nat) (context : Context) (step : Step) (input : Value) :
    (callAction usualLimit context step input).OnlyCalls := by
  rw [Workflow.callAction]
  cases step.action with
  | none => exact .settle _
  | some action =>
    refine .lookUp action fun found => ?_
    cases found with
    | none => exact .settle _
    | some registration =>
      cases step.loopOver with
      | none =>
        refine callOnce step action registration _ input fun result => ?_
        cases result <;> exact .settle _
      | some expression =>
        dsimp only
        cases iterated step expression context with
        | error error => exact .settle _
        | ok items => exact callForEach step action registration _ context [] items

end Process.OnlyCalls

/-! ## Requests apart -/

/-- A process of an execution that asks humans only in steps with certain names, and never in two of
one name side by side. -/
inductive Process.AsksApart (execution : String) : List String → Process → Prop where
  | settle (names : List String) (outcome : Outcome) : AsksApart execution names (.settle outcome)
  | warn {names : List String} {next : Process} (warning : Warning)
      (later : next.AsksApart execution names) : AsksApart execution names (.warn warning next)
  | lookUp {names : List String} {next : Option Registration → Process} (action : String)
      (later : ∀ found, (next found).AsksApart execution names) :
      AsksApart execution names (.lookUp action next)
  | call {names : List String} {next : CallEnd → Process} (registration : Registration)
      (input : Value) (limit : Option Nat)
      (later : ∀ callEnd, (next callEnd).AsksApart execution names) :
      AsksApart execution names (.call registration input limit next)
  | ask {names : List String} {context : Context} {step : Step} (input : Value)
      (own : context.execution = execution) (named : step.name ∈ names) :
      AsksApart execution names (askHuman context step input)
  /-- It runs processes side by side, which share out the names. -/
  | together {names : List String} {next : List Outcome → Process}
      (shares : List (List String × Process))
      (members : ∀ share ∈ shares, share.2.AsksApart execution share.1)
      (apart : shares.Pairwise fun first second => first.1.Disjoint second.1)
      (within : ∀ share ∈ shares, share.1 ⊆ names)
      (later : ∀ outcomes, (next outcomes).AsksApart execution names) :
      AsksApart execution names (.together (shares.map Prod.snd) next)

namespace Process.AsksApart

variable {execution : String} {names : List String} {process next : Process}

/-- A process that only calls actions asks nobody. -/
theorem of_onlyCalls (calls : process.OnlyCalls) : process.AsksApart execution names := by
  induction calls with
  | settle outcome => exact .settle names outcome
  | warn warning _ ih => exact .warn warning ih
  | lookUp action _ ih => exact .lookUp action ih
  | call registration input limit _ ih => exact .call registration input limit ih

/-- A process that asks within certain names asks within more names. -/
theorem mono (asks : process.AsksApart execution names) {more : List String}
    (fewer : names ⊆ more) : process.AsksApart execution more := by
  induction asks with
  | settle _ outcome => exact .settle more outcome
  | warn warning _ ih => exact .warn warning (ih fewer)
  | lookUp action _ ih => exact .lookUp action fun found => ih found fewer
  | call registration input limit _ ih =>
    exact .call registration input limit fun callEnd => ih callEnd fewer
  | ask input own named => exact .ask input own (fewer named)
  | together shares members apart within _ _ ih =>
    refine .together shares members apart ?_ fun outcomes => ih outcomes fewer
    exact fun share member name shared => fewer (within share member shared)

/-- A warning may come before a process that asks apart. -/
theorem warnSome (warning : Option Warning) (later : next.AsksApart execution names) :
    (Process.warnSome warning next).AsksApart execution names := by
  cases warning with
  | none => exact later
  | some warning => exact .warn warning later

/-- Warnings may come before a process that asks apart. -/
theorem warnAll (warnings : List Warning) (later : next.AsksApart execution names) :
    (Process.warnAll warnings next).AsksApart execution names := by
  induction warnings with
  | nil => exact later
  | cons warning _ ih => exact .warn warning ih

/-- A process that is followed by another one shares all its names with it. -/
theorem after {next : Outcome → Process} (first : process.AsksApart execution names)
    (later : ∀ outcome, (next outcome).AsksApart execution names) :
    (process.after next).AsksApart execution names := by
  refine .together [(names, process)] ?_ (List.pairwise_singleton _ _) ?_ fun outcomes => ?_
  · intro share member
    obtain rfl := List.mem_singleton.mp member
    exact first
  · intro share member
    obtain rfl := List.mem_singleton.mp member
    exact fun name named => named
  · rcases outcomes with _ | ⟨outcome, _ | _⟩
    · exact .settle names _
    · exact later outcome
    · exact .settle names _

/-! ## Groups -/

/-- Batches of steps ask apart if the steps of each batch do, each under the names of its own human
steps. -/
theorem runBatches {processOf : Step → Process} (group : String) (collected : Collected)
    (cut : List (List Step))
    (members : ∀ batch ∈ cut, ∀ step ∈ batch,
      (processOf step).AsksApart execution step.reviews ∧ step.reviews ⊆ names)
    (apart : ∀ batch ∈ cut, batch.Pairwise Step.ApartFrom) :
    (runBatches group collected
      (cut.map (List.map fun step => (step, processOf step)))).AsksApart execution names := by
  induction cut generalizing collected with
  | nil => exact .settle names _
  | cons batch rest ih =>
    have shared : (batch.map fun step => (step, processOf step)).map Prod.snd =
        (batch.map fun step => (step.reviews, processOf step)).map Prod.snd := by
      simp
    rw [List.map_cons, Workflow.runBatches, shared]
    refine .together _ ?members ?apart ?within fun outcomes => ?later
    case members =>
      intro share member
      obtain ⟨step, inBatch, rfl⟩ := List.mem_map.mp member
      exact (members batch List.mem_cons_self step inBatch).1
    case apart => exact List.pairwise_map.mpr (apart batch List.mem_cons_self)
    case within =>
      intro share member
      obtain ⟨step, inBatch, rfl⟩ := List.mem_map.mp member
      exact (members batch List.mem_cons_self step inBatch).2
    case later =>
      refine warnAll _ (ih _ ?_ ?_)
      · exact fun later inRest => members later (List.mem_cons_of_mem batch inRest)
      · exact fun later inRest => apart later (List.mem_cons_of_mem batch inRest)

/-- A group asks apart if the members of each of its batches do. -/
theorem runGroup {processOf : Step → Process} (size : Nat) (group : Step)
    (members : ∀ step ∈ group.steps, (processOf step).AsksApart execution step.reviews)
    (apart : ∀ batch ∈ batches size group.steps, batch.Pairwise Step.ApartFrom) :
    (runGroup size group (group.steps.map fun step => (step, processOf step))).AsksApart
      execution group.reviews := by
  rw [Workflow.runGroup]
  split
  · exact .settle _ _
  · rw [batches_map]
    refine runBatches group.name .nothing _ (fun batch cut step inBatch => ?_) apart
    have inside := (sublist_of_mem_batches size group.steps batch cut).subset inBatch
    exact ⟨members step inside, Step.reviews_subset inside⟩

end Process.AsksApart

/-! ## Custom executors -/

/-- An executor that lets the steps inside a step take turns, and makes no requests but those of the
step. -/
def CustomExecutor.TakesTurns (executor : CustomExecutor) : Prop :=
  ∀ (context : Context) (step : Step) (input : Value) (members : List (Step × Process)),
    (∀ member ∈ members, member.2.AsksApart context.execution step.reviews) →
      (executor.process context step input members).AsksApart context.execution step.reviews

/-- Steps that run one after another may ask under the same names. -/
theorem dispatchInOrder_asksApart {execution : String} {names : List String}
    (reversed : List Value) (members : List (Step × Process))
    (asks : ∀ member ∈ members, member.2.AsksApart execution names) :
    (dispatchInOrder reversed members).AsksApart execution names := by
  induction members generalizing reversed with
  | nil => exact .settle names _
  | cons member rest ih =>
    refine (asks member List.mem_cons_self).after fun outcome => ih _ ?_
    exact fun other inRest => asks other (List.mem_cons_of_mem member inRest)

/-- The executors by name take turns. -/
theorem CustomExecutor.named_takesTurns (beginning : String) (behavior : CustomBehavior) :
    (CustomExecutor.named beginning behavior).TakesTurns := by
  intro context step input members asks
  cases behavior with
  | fail | describe | reply => exact .settle _ _
  | dispatch => exact dispatchInOrder_asksApart [] members asks

/-! ## Steps -/

/-- The processes of steps are listed in the order of the steps. -/
theorem processesOf_eq (setup : Setup) (context : Context) (steps : List Step) :
    processesOf setup context steps = steps.map fun step => (step, step.process setup context) := by
  induction steps with
  | nil => rfl
  | cons step rest ih => rw [processesOf, List.map_cons, ih]

/-- A step asks apart if the steps inside it do and the members of its batches are kept apart. -/
theorem perform_asksApart (setup : Setup) (custom : ∀ executor ∈ setup.custom, executor.TakesTurns)
    (context : Context) (step : Step)
    (apart : ∀ batch ∈ batches setup.maxParallelSteps step.steps, batch.Pairwise Step.ApartFrom)
    (members : ∀ member ∈ step.steps,
      (member.process setup context).AsksApart context.execution member.reviews) :
    (perform setup context step (processesOf setup context step.steps)).AsksApart
      context.execution step.reviews := by
  rw [perform, processesOf_eq]
  refine .warnSome _ ?_
  split
  case isFalse => exact .settle _ _
  cases found : setup.custom.find? (·.supports step) with
  | some executor =>
    rw [execute_of_supported found]
    refine custom executor (List.mem_of_find?_eq_some found) context step _ _ fun entry known => ?_
    obtain ⟨member, inside, rfl⟩ := List.mem_map.mp known
    exact (members member inside).mono (Step.reviews_subset inside)
  | none =>
    rw [execute_of_unsupported found]
    cases kind : step.kind with
    | action => exact .of_onlyCalls (.callAction _ context step _)
    | parallel => exact .runGroup _ step members apart
    | humanInLoop =>
      exact .ask _ rfl (Step.mem_reviews.mpr ⟨step, step.mem_descendants_self, kind, rfl⟩)

mutual

/-- A step asks apart if at every depth inside it the members of each batch are kept apart. -/
theorem Step.process_asksApart (setup : Setup)
    (custom : ∀ executor ∈ setup.custom, executor.TakesTurns) (context : Context) (step : Step)
    (apart : ∀ inner ∈ step.descendants, ∀ batch ∈ batches setup.maxParallelSteps inner.steps,
      batch.Pairwise Step.ApartFrom) :
    (step.process setup context).AsksApart context.execution step.reviews := by
  obtain ⟨name, kind, action, input, output, condition, timeout, fallback, loopOver, steps⟩ := step
  rw [Step.process]
  refine perform_asksApart setup custom context _ (apart _ (Step.mem_descendants_self _)) ?_
  refine members_asksApart setup custom context steps fun inner deeper => apart inner ?_
  rw [Step.descendants_eq]
  exact List.mem_cons_of_mem _ deeper

/-- Steps ask apart, each for itself. -/
theorem members_asksApart (setup : Setup)
    (custom : ∀ executor ∈ setup.custom, executor.TakesTurns) (context : Context)
    (steps : List Step)
    (apart : ∀ inner ∈ descendantsOf steps,
      ∀ batch ∈ batches setup.maxParallelSteps inner.steps, batch.Pairwise Step.ApartFrom) :
    ∀ member ∈ steps,
      (member.process setup context).AsksApart context.execution member.reviews := by
  cases steps with
  | nil => simp
  | cons step rest =>
    rw [descendantsOf] at apart
    have first := Step.process_asksApart setup custom context step fun inner deeper =>
      apart inner (List.mem_append_left _ deeper)
    have others := members_asksApart setup custom context rest fun inner deeper =>
      apart inner (List.mem_append_right _ deeper)
    intro member inside
    rcases List.mem_cons.mp inside with rfl | later
    · exact first
    · exact others member later

end

end Workflow
