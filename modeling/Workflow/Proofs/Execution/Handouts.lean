import Workflow.Proofs.Execution.Obedience

/-!
# What steps hand out

A step hands the input of each call to an action, and its request to a human. `Process.Hands` says
of everything that a process hands out, and of the number of calls that it has made before, that it
fits. `Step.HandsOut` says what fits for a step: its condition, its loop and its input are judged in
the context of the run, and only in a round of a loop is the input resolved in the scope of that
round, where one more variable is bound.

A step without custom executors hands out nothing else, at any depth (`Step.process_hands`).
-/
namespace Workflow

/-- What an action or a human is given. -/
inductive Handout where
  /-- The input of a call. -/
  | input (value : Value)
  | request (request : Request)

/-- Everything that a process hands out after a number of calls fits. -/
inductive Process.Hands (fits : Nat → Handout → Prop) : Nat → Process → Prop where
  | settle (calls : Nat) (outcome : Outcome) : Hands fits calls (.settle outcome)
  | warn {calls : Nat} {next : Process} (warning : Warning) (later : next.Hands fits calls) :
      Hands fits calls (.warn warning next)
  | lookUp {calls : Nat} {next : Option Registration → Process} (action : String)
      (later : ∀ found, (next found).Hands fits calls) : Hands fits calls (.lookUp action next)
  /-- The call counts for what comes after it. -/
  | call {calls : Nat} {input : Value} {next : CallEnd → Process} (registration : Registration)
      (limit : Option Nat) (handed : fits calls (.input input))
      (later : ∀ callEnd, (next callEnd).Hands fits (calls + 1)) :
      Hands fits calls (.call registration input limit next)
  | review {calls : Nat} {request : Request} {body : Seat → Process}
      (handed : fits calls (.request request))
      (later : ∀ seat, seat.key = request.key → (body seat).Hands fits calls) :
      Hands fits calls (.review request body)
  /-- It waits for a decision about a request that it has made. -/
  | await {calls : Nat} {seat : Seat} {next : Option Decision → Process} (limit : Option Nat)
      (made : ∃ earlier request, fits earlier (.request request) ∧ seat.key = request.key)
      (later : ∀ decision, (next decision).Hands fits calls) :
      Hands fits calls (.await seat limit next)
  /-- Each of the processes that run side by side counts its own calls. -/
  | together {calls : Nat} {members : List Process} {next : List Outcome → Process}
      (each : ∀ member ∈ members, member.Hands fits 0)
      (later : ∀ outcomes, (next outcomes).Hands fits calls) :
      Hands fits calls (.together members next)

/-- The scope of a round of a loop over items: the item of the round is bound, and all else is as
outside the loop. -/
structure Context.Round (context : Context) (items : List Value) (round : Nat)
    (scope : Context) : Prop where
  current : ∃ item, items[round]? = some item ∧ scope.get? itemName = some item
  others : ∀ name, name ≠ itemName → scope.get? name = context.get? name
  /-- The item is no output. -/
  outputs : scope.outputNames = context.outputNames

/-- What a step itself hands out in a context after a number of calls. -/
inductive Step.HandsOut (context : Context) (step : Step) (calls : Nat) : Handout → Prop where
  /-- Its input, resolved in the context. -/
  | input (kind : step.kind = .action) (once : step.loopOver = none) (first : calls = 0) :
      HandsOut context step calls (.input (step.resolvedInput context))
  /-- Its input, resolved for the next element of the list that the context gives. -/
  | element {expression : String} {items : List Value} {scope : Context}
      (kind : step.kind = .action) (loops : step.loopOver = some expression)
      (list : resolve? expression context = some (.list items))
      (round : context.Round items calls scope) :
      HandsOut context step calls (.input (step.resolvedInput scope))
  | request (kind : step.kind = .humanInLoop) :
      HandsOut context step calls (.request (requestOf context step (step.resolvedInput context)))
  /-- The same request as the input of the action that notifies the human. -/
  | notice (kind : step.kind = .humanInLoop) : HandsOut context step calls
      (.input (requestOf context step (step.resolvedInput context)).notification)

/-- What steps and the steps inside them hand out in a context: each of those that do runs because
its condition holds in the context. -/
def HandedBy (context : Context) (steps : List Step) (calls : Nat) (handout : Handout) : Prop :=
  ∃ inner ∈ descendantsOf steps, (Condition.evaluate inner.condition context).holds = true ∧
    inner.HandsOut context calls handout

namespace HandedBy

variable {context : Context} {step : Step} {steps rest : List Step} {calls : Nat}
  {handout : Handout}

/-- A step that runs hands out what it should itself. -/
theorem own (runs : (Condition.evaluate step.condition context).holds = true)
    (handed : step.HandsOut context calls handout) : HandedBy context [step] calls handout := by
  refine ⟨step, ?_, runs, handed⟩
  rw [descendantsOf, Step.descendants_eq]
  exact List.mem_append_left _ List.mem_cons_self

/-- What a step inside a step is handed is handed within the step. -/
theorem inside (handed : HandedBy context step.steps calls handout) :
    HandedBy context [step] calls handout := by
  obtain ⟨inner, deeper, runs, handed⟩ := handed
  refine ⟨inner, ?_, runs, handed⟩
  rw [descendantsOf, Step.descendants_eq]
  exact List.mem_append_left _ (List.mem_cons_of_mem _ deeper)

/-- What is handed by the first of several steps is handed by them. -/
theorem first (handed : HandedBy context [step] calls handout) :
    HandedBy context (step :: rest) calls handout := by
  obtain ⟨inner, deeper, handed⟩ := handed
  rw [descendantsOf, descendantsOf, List.append_nil] at deeper
  refine ⟨inner, ?_, handed⟩
  rw [descendantsOf]
  exact List.mem_append_left _ deeper

/-- What is handed by a later one of several steps is handed by them. -/
theorem later (handed : HandedBy context rest calls handout) :
    HandedBy context (step :: rest) calls handout := by
  obtain ⟨inner, deeper, handed⟩ := handed
  refine ⟨inner, ?_, handed⟩
  rw [descendantsOf]
  exact List.mem_append_right _ deeper

end HandedBy

/-- Where there is a round of a loop, the context gives a list. -/
theorem resolve?_of_iterated {step : Step} {expression : String} {context : Context}
    {items : List Value} {round : Nat} {item : Value}
    (repeated : iterated step expression context = .ok items) (known : items[round]? = some item) :
    resolve? expression context = some (.list items) := by
  rw [iterated] at repeated
  split at repeated
  · cases repeated
    simp at known
  · cases repeated
    simp at known
  next same =>
    cases repeated
    exact same
  · cases repeated

namespace Process.Hands

variable {fits : Nat → Handout → Prop} {calls : Nat} {process next : Process}

/-- What is handed out fits whatever is weaker. -/
theorem mono {other : Nat → Handout → Prop} (hands : process.Hands fits calls)
    (weaker : ∀ calls handout, fits calls handout → other calls handout) :
    process.Hands other calls := by
  induction hands with
  | settle => exact .settle _ _
  | warn warning _ ih => exact .warn warning ih
  | lookUp action _ ih => exact .lookUp action ih
  | call registration limit handed _ ih =>
    exact .call registration limit (weaker _ _ handed) ih
  | review handed _ ih => exact .review (weaker _ _ handed) ih
  | await limit made _ ih =>
    obtain ⟨earlier, request, fit, same⟩ := made
    exact .await limit ⟨earlier, request, weaker _ _ fit, same⟩ ih
  | together _ _ ihEach ihLater => exact .together ihEach ihLater

/-- A warning hands nothing out. -/
theorem warnSome {warning : Option Warning} (later : next.Hands fits calls) :
    (Process.warnSome warning next).Hands fits calls := by
  cases warning with
  | none => exact later
  | some given => exact .warn given later

/-- Warnings hand nothing out. -/
theorem warnAll (warnings : List Warning) (later : next.Hands fits calls) :
    (Process.warnAll warnings next).Hands fits calls := by
  induction warnings with
  | nil => exact later
  | cons warning rest ih => exact .warn warning ih

/-! ## Actions -/

/-- A call hands out its input, and what follows it hands out the rest. -/
theorem callOnce {step : Step} {action : String} {registration : Registration}
    {limit : Option Nat} {input : Value} {next : CallResult → Process}
    (handed : fits calls (.input input))
    (later : ∀ result, (next result).Hands fits (calls + 1)) :
    (callOnce step action registration limit input next).Hands fits calls := by
  refine .call registration limit handed fun callEnd => ?_
  rcases callEnd with (error | value) | _
  · exact later _
  · exact later _
  · exact warnSome (later _)

/-- A loop hands out the input for each element in the order of the list. -/
theorem callForEach {context : Context} {step : Step} {items : List Value} (action : String)
    (registration : Registration) (limit : Option Nat)
    (handed : ∀ calls scope, context.Round items calls scope →
      fits calls (.input (step.resolvedInput scope)))
    (reversed rest : List Value) (before : List Value) (split : items = before ++ rest) :
    (callForEach step action registration limit context reversed rest).Hands fits
      before.length := by
  -- What lies before the rest counts the rounds, and each round has made one call.
  induction rest generalizing reversed before with
  | nil => exact .settle _ _
  | cons item rest ih =>
    have round : context.Round items before.length (context.bind itemName item) := by
      constructor
      · exact ⟨item, by simp [split], by simp [Context.get?, Context.bind]⟩
      · intro name other
        have differ : (name == itemName) = false := by simpa using other
        simp [Context.get?, Context.bind, List.lookup_cons, differ]
      · rfl
    refine callOnce (handed _ _ round) fun result => ?_
    cases result with
    | error error => exact .settle _ _
    | ok value =>
      have more := ih (value :: reversed) (before ++ [item]) (by simp [split])
      rwa [List.length_append] at more

/-- A step that calls an action hands out its resolved input, call after call. -/
theorem callAction (usualLimit : Option Nat) {context : Context} {step : Step}
    (kind : step.kind = .action) :
    (callAction usualLimit context step (step.resolvedInput context)).Hands
      (step.HandsOut context) 0 := by
  rw [Workflow.callAction]
  split
  · exact .settle _ _
  next action _ =>
    refine .lookUp action fun found => ?_
    cases found with
    | none => exact .settle _ _
    | some registration =>
      dsimp only
      split
      next once =>
        refine callOnce (.input kind once rfl) fun result => ?_
        cases result <;> exact .settle _ _
      next expression loops =>
        split
        next items list =>
          refine callForEach action registration _ ?_ [] items [] rfl
          intro calls scope round
          obtain ⟨item, known, -⟩ := round.current
          exact .element kind loops (resolve?_of_iterated list known) round
        · exact .settle _ _

/-! ## Reviews -/

/-- A step that asks a human hands out its resolved input. -/
theorem askHuman {context : Context} {step : Step} (kind : step.kind = .humanInLoop) :
    (askHuman context step (step.resolvedInput context)).Hands (step.HandsOut context) 0 := by
  have awaits : ∀ seat calls,
      seat.key = (requestOf context step (step.resolvedInput context)).key →
      (awaitDecision step (step.resolvedInput context) seat).Hands (step.HandsOut context)
        calls := by
    intro seat calls own
    refine .await _ ⟨0, _, .request kind, own⟩ fun decision => ?_
    cases decision with
    | none => exact .settle _ _
    | some decision => exact warnSome (.settle _ _)
  refine .review (.request kind) fun seat own => ?_
  rw [onceSeated]
  split
  · exact awaits seat 0 own
  next action _ =>
    refine .lookUp action fun found => ?_
    cases found with
    | none => exact .settle _ _
    | some registration =>
      refine .call registration none (.notice kind) fun callEnd => ?_
      rcases callEnd with (error | value) | _
      · exact .settle _ _
      · exact awaits seat 1 own
      · exact awaits seat 1 own

/-! ## Groups -/

/-- Batches hand out what their members do. -/
theorem runBatches (group : String) (collected : Collected) (cut : List (List (Step × Process)))
    (members : ∀ batch ∈ cut, ∀ member ∈ batch, member.2.Hands fits 0) :
    (runBatches group collected cut).Hands fits calls := by
  induction cut generalizing collected with
  | nil => exact .settle _ _
  | cons batch rest ih =>
    refine .together ?_ fun outcomes => ?_
    · rw [List.forall_mem_map]
      exact members batch List.mem_cons_self
    · exact warnAll _ (ih _ fun later inRest => members later (List.mem_cons_of_mem _ inRest))

/-- A group hands out what its members do. -/
theorem runGroup (size : Nat) (group : Step) {members : List (Step × Process)}
    (each : ∀ member ∈ members, member.2.Hands fits 0) :
    (runGroup size group members).Hands fits calls := by
  rw [Workflow.runGroup]
  split
  · exact .settle _ _
  · refine runBatches group.name .nothing _ fun batch cut member inside => ?_
    exact each member ((sublist_of_mem_batches size _ batch cut).subset inside)

/-! ## Rules -/

/-- Whoever may ask what fits obeys rules that forbid nothing else. -/
theorem obeys {rules : Rules} (hands : process.Hands fits calls)
    (asks : ∀ calls request, fits calls (.request request) → rules.asks request.key)
    (tolerates : ∀ warning, rules.tolerates warning) (allows : ∀ outcome, rules.allows outcome) :
    process.Obeys rules := by
  induction hands with
  | settle calls outcome => exact .settle (allows outcome)
  | warn warning _ ih => exact .warn (tolerates warning) ih
  | lookUp action _ ih => exact .lookUp fun found _ => ih found
  | call registration limit _ _ ih => exact .call registration _ limit ih
  | review handed _ ih => exact .review (asks _ _ handed) ih
  | await limit made _ ih =>
    obtain ⟨earlier, request, fit, same⟩ := made
    exact .await limit (same ▸ asks _ _ fit) ih
  | together _ _ ihEach ihLater => exact .together ihEach fun outcomes _ => ihLater outcomes

end Process.Hands

/-! ## Steps -/

/-- A step hands out what it should if the steps inside it do. -/
theorem perform_hands {setup : Setup} (custom : setup.custom = []) (context : Context)
    (step : Step) (members : ∀ member ∈ processesOf setup context step.steps,
      member.2.Hands (HandedBy context step.steps) 0) :
    (perform setup context step (processesOf setup context step.steps)).Hands
      (HandedBy context [step]) 0 := by
  rw [perform]
  refine .warnSome ?_
  split
  case isFalse => exact .settle _ _
  case isTrue runs =>
    rw [execute_of_plain custom]
    cases kind : step.kind with
    | action => exact (Process.Hands.callAction _ kind).mono fun _ _ => .own runs
    | parallel =>
      refine .runGroup _ step fun member known => ?_
      exact (members member known).mono fun _ _ => .inside
    | humanInLoop => exact (Process.Hands.askHuman kind).mono fun _ _ => .own runs

mutual

/-- Whatever a step or a step inside it hands out is judged and resolved in the context of the step,
and in the scope of a round only where the step is repeated. -/
theorem Step.process_hands {setup : Setup} (custom : setup.custom = []) (context : Context)
    (step : Step) : (step.process setup context).Hands (HandedBy context [step]) 0 := by
  obtain ⟨name, kind, action, input, output, condition, timeout, fallback, loopOver, steps⟩ := step
  rw [Step.process]
  exact perform_hands custom context _ (members_hand custom context steps)

/-- The processes inside a step hand out what belongs to the steps inside it. -/
theorem members_hand {setup : Setup} (custom : setup.custom = []) (context : Context)
    (steps : List Step) : ∀ member ∈ processesOf setup context steps,
      member.2.Hands (HandedBy context steps) 0 := by
  cases steps with
  | nil => simp [processesOf]
  | cons step rest =>
    have first := Step.process_hands custom context step
    have others := members_hand custom context rest
    rw [processesOf]
    refine List.forall_mem_cons.mpr ⟨?_, ?_⟩
    · exact first.mono fun _ _ => .first
    · intro member known
      exact (others member known).mono fun _ _ => .later

end

end Workflow
