import Workflow.Execution.Action
import Workflow.Proofs.Execution.Traces

/-!
# Calls within their limit

What a call contributes to its step depends on how it ended: its own result if it ended in time,
else what stands in for it. A step that is repeated over a list makes its calls one after another
in the order of the list, each as soon as the one before it has ended, and stops at the first error.

A place in the tale of a step is followed by a call that ends when it is due; the tale of the whole
loop is made of these by induction on the list.
-/
namespace Workflow

/-- What a call contributes to its step. A failure in time is never made good by a fallback. -/
def Step.contribution (step : Step) (action : String) (limit : Option Nat) :
    CallEnd → Except StepError Value
  | .returned (.ok value) => .ok value
  | .returned (.error source) => .error (.actionFailed action source)
  | .cut =>
    match step.fallback with
    | some (.value value) => .ok value
    | some .autoApprove => .ok (.ofFields [("approved", .bool true), ("autoApproved", .bool true)])
    | none => .error (.timedOutAfter step.name (limit.getD 0))

/-- A call of a registered action was made with a limit, and it ended when its action had answered
or, if that would have been later, at the very end of the limit. -/
structure Exchange.InTime (exchange : Exchange) (registration : Registration) (action : Action)
    (limit : Option Nat) : Prop where
  called : exchange.registration = registration ∧ exchange.limit = limit
  answer : ∃ earlier, exchange.answer = action.answer earlier exchange.input
  ends : ∃ duration, exchange.answer.within limit = some (duration, exchange.callEnd) ∧
    exchange.ends = exchange.begins + duration

/-- The calls of a registered action for some inputs, between two times. -/
structure Exchange.Sequence (registration : Registration) (action : Action) (limit : Option Nat)
    (contribution : CallEnd → Except StepError Value) (begins : Nat) (inputs : List Value)
    (exchanges : List Exchange) (ends : Nat) : Prop where
  inTime : ∀ exchange ∈ exchanges, exchange.InTime registration action limit
  /-- The inputs are taken in order. -/
  order : exchanges.map Exchange.input <+: inputs
  /-- Each call begins when the one before it has ended. -/
  times : begins :: exchanges.map Exchange.ends = exchanges.map Exchange.begins ++ [ends]
  /-- After an error there are no more calls. -/
  stops : ∀ exchange ∈ exchanges.dropLast, ∃ value, contribution exchange.callEnd = .ok value
  /-- Without an error no input is left out. -/
  whole : (∀ exchange ∈ exchanges, ∃ value, contribution exchange.callEnd = .ok value) →
    exchanges.map Exchange.input = inputs

/-- A step that is repeated gives the list of all contributions, or the first error. -/
def Outcome.ofContributions (contributions : List (Except StepError Value)) : Outcome :=
  match contributions.mapM id with
  | .ok values => .ofValue (.list values)
  | .error error => .error error

/-- Calls that have all succeeded contribute the list of their values. -/
theorem Outcome.ofContributions_ok (values : List Value) :
    ofContributions (values.map .ok) = .ofValue (.list values) := by
  have all : (values.map Except.ok).mapM id = (.ok values : Except StepError (List Value)) := by
    induction values with
    | nil => rfl
    | cons value rest ih =>
      rw [List.map_cons, List.mapM_cons, ih]
      rfl
  rw [ofContributions, all]

/-- The first call that has failed decides the outcome, whatever the later ones contribute. -/
theorem Outcome.ofContributions_error (values : List Value) (error : StepError)
    (rest : List (Except StepError Value)) :
    ofContributions (values.map .ok ++ .error error :: rest) = .error error := by
  have first : (values.map Except.ok ++ Except.error error :: rest).mapM id =
      (.error error : Except StepError (List Value)) := by
    induction values with
    | nil => rfl
    | cons value others ih =>
      rw [List.map_cons, List.cons_append, List.mapM_cons, ih]
      rfl
  rw [ofContributions, first]

namespace Exchange.Sequence

variable {registration : Registration} {action : Action} {limit : Option Nat}
  {contribution : CallEnd → Except StepError Value} {begins ends : Nat} {inputs : List Value}
  {exchange : Exchange} {exchanges : List Exchange}

/-- For no inputs no calls are made, and no time passes. -/
theorem nil : Sequence registration action limit contribution begins [] [] begins where
  inTime := by simp
  order := List.nil_prefix
  times := rfl
  stops := by simp
  whole _ := rfl

/-- After a call that contributes a value the rest is called for. -/
theorem cons (inTime : exchange.InTime registration action limit) {value : Value}
    (gives : contribution exchange.callEnd = .ok value)
    (rest : Sequence registration action limit contribution exchange.ends inputs exchanges ends) :
    Sequence registration action limit contribution exchange.begins (exchange.input :: inputs)
      (exchange :: exchanges) ends where
  inTime := List.forall_mem_cons.mpr ⟨inTime, rest.inTime⟩
  order := List.cons_prefix_cons.mpr ⟨rfl, rest.order⟩
  times := by rw [List.map_cons, List.map_cons, List.cons_append, rest.times]
  stops := by
    cases exchanges with
    | nil => simp
    | cons next later =>
      rw [List.dropLast_cons_of_ne_nil (List.cons_ne_nil _ _)]
      exact List.forall_mem_cons.mpr ⟨⟨value, gives⟩, rest.stops⟩
  whole all := congrArg (exchange.input :: ·) (rest.whole (List.forall_mem_cons.mp all).2)

/-- A call that contributes an error is the last one. -/
theorem last (inTime : exchange.InTime registration action limit) {error : StepError}
    (fails : contribution exchange.callEnd = .error error) :
    Sequence registration action limit contribution exchange.begins (exchange.input :: inputs)
      [exchange] exchange.ends where
  inTime := by simpa using inTime
  order := List.cons_prefix_cons.mpr ⟨rfl, List.nil_prefix⟩
  times := rfl
  stops := by simp
  whole all := by
    obtain ⟨value, gives⟩ := all exchange (List.mem_singleton_self _)
    cases fails.symm.trans gives

end Exchange.Sequence

/-! ## One call -/

/-- A call always ends, unless it has no limit and its action never answers. -/
theorem Answer.exists_within {answer : Answer} {limit : Option Nat}
    (answers : limit = none → ∃ delay result, answer = .after delay result) :
    ∃ duration callEnd, answer.within limit = some (duration, callEnd) := by
  cases limit with
  | none =>
    obtain ⟨delay, result, rfl⟩ := answers rfl
    exact ⟨delay, _, rfl⟩
  | some cut =>
    cases answer with
    | never => exact ⟨cut, .cut, rfl⟩
    | after delay result =>
      rw [within]
      split
      · exact ⟨delay, _, rfl⟩
      · exact ⟨cut, .cut, rfl⟩

/-- A step goes on with what its call contributes, after a warning if a fallback stands in. -/
theorem callOnce_eq (step : Step) (action : String) (registration : Registration)
    (limit : Option Nat) (input : Value) (next : CallResult → Process) :
    ∃ warning : CallEnd → Option Warning, callOnce step action registration limit input next =
      .call registration input limit fun callEnd =>
        .warnSome (warning callEnd) (next (step.contribution action limit callEnd)) := by
  let warning : CallEnd → Option Warning
    | .returned _ => none
    | .cut => (cutResult step (limit.getD 0)).1
  refine ⟨warning, congrArg (Process.call registration input limit) (funext fun callEnd => ?_)⟩
  match callEnd with
  | .returned (.ok value) => rfl
  | .returned (.error source) => rfl
  | .cut =>
    simp only [Step.contribution, cutResult, warning]
    rcases step.fallback with _ | _ | value <;> rfl

namespace Process

variable {table : ActionRegistry} {history : History table} {whole : Process}

/-- A warning takes no time. -/
theorem Stands.warnSome {warning : Option Warning} {next : Process} {instant : Instant}
    (stands : whole.Stands history (.warnSome warning next) instant) :
    ∃ later : Instant, whole.Stands history next later ∧
      later.environment.now = instant.environment.now ∧
      ∀ exchanges outcome last, next.Exchanges history.moment later exchanges outcome last →
        (Process.warnSome warning next).Exchanges history.moment instant exchanges outcome
          last := by
  cases warning with
  | none => exact ⟨instant, stands, rfl, fun _ _ _ told => told⟩
  | some warning => exact ⟨_, stands.warn, rfl, fun _ _ _ told => .warn told⟩

variable {registration : Registration} {action : Action} {limit : Option Nat}
  (known : table.registrations[registration]?.map Registered.action = some action)
  (answers : limit = none →
    ∀ earlier input, ∃ delay result, action.answer earlier input = .after delay result)
  (punctual : whole.Punctual history)
include known answers punctual

/-- A step that stands before a call makes it, and goes on with its contribution. -/
theorem Stands.callOnce {step : Step} {name : String} {input : Value}
    {next : CallResult → Process} {instant : Instant}
    (stands : whole.Stands history
      (Workflow.callOnce step name registration limit input next) instant) :
    ∃ exchange later, exchange.InTime registration action limit ∧ exchange.input = input ∧
      exchange.begins = instant.environment.now ∧ exchange.ends = later.environment.now ∧
      whole.Stands history (next (step.contribution name limit exchange.callEnd)) later ∧
      ∀ exchanges outcome last,
        (next (step.contribution name limit exchange.callEnd)).Exchanges history.moment later
          exchanges outcome last →
        (Workflow.callOnce step name registration limit input next).Exchanges history.moment
          instant (exchange :: exchanges) outcome last := by
  obtain ⟨earlier, answer⟩ : ∃ earlier,
      (instant.environment.actions.call registration input).1 = action.answer earlier input :=
    ((history.actions instant.turn).trans stands.same.2).answered known input
  have ends : ∃ duration callEnd, (instant.environment.actions.call registration input).1.within
      limit = some (duration, callEnd) := by
    rw [answer]
    exact Answer.exists_within fun unlimited => answers unlimited earlier input
  obtain ⟨duration, callEnd, within⟩ := ends
  obtain ⟨warning, form⟩ := callOnce_eq step name registration limit input next
  rw [form] at stands ⊢
  obtain ⟨found, awaits, atTime, goesOn⟩ := stands.call punctual within
  obtain ⟨later, stands, sameTime, tells⟩ := goesOn.warnSome
  have recorded := found.environment.quiet_recordEnd
    (instant.environment.beginCall registration input limit).1 callEnd
  exact ⟨_, later, ⟨⟨rfl, rfl⟩, ⟨earlier, answer⟩, ⟨duration, within, atTime⟩⟩, rfl, rfl,
    (sameTime.trans recorded.now).symm, stands,
    fun exchanges outcome last told => .call awaits (tells exchanges outcome last told)⟩

/-- A step that stands before the rest of its list calls for it in order. -/
theorem Stands.callForEach {step : Step} {name : String} {context : Context}
    {reversed items : List Value} {instant : Instant}
    (stands : whole.Stands history
      (Workflow.callForEach step name registration limit context reversed items) instant) :
    ∃ exchanges last, Exchange.Sequence registration action limit
        (step.contribution name limit) instant.environment.now
        (items.map fun item => step.resolvedInput (context.bind itemName item)) exchanges
        last.environment.now ∧
      (Workflow.callForEach step name registration limit context reversed items).Exchanges
        history.moment instant exchanges
        (.ofContributions (reversed.reverse.map .ok ++
          exchanges.map fun exchange => step.contribution name limit exchange.callEnd)) last := by
  induction items generalizing reversed instant with
  | nil =>
    refine ⟨[], instant, .nil, ?_⟩
    rw [List.map_nil, List.append_nil, Outcome.ofContributions_ok]
    exact .settle
  | cons item rest ih =>
    rw [Workflow.callForEach] at stands ⊢
    obtain ⟨exchange, later, inTime, input, begins, ends, goesOn, tells⟩ :=
      stands.callOnce known answers punctual
    cases gives : step.contribution name limit exchange.callEnd with
    | ok value =>
      rw [gives] at goesOn tells
      obtain ⟨exchanges, last, sequence, told⟩ := ih goesOn
      refine ⟨exchange :: exchanges, last, ?_, ?_⟩
      · rw [List.map_cons, ← input, ← begins]
        exact .cons inTime gives (ends ▸ sequence)
      · rw [List.map_cons, gives]
        rw [List.reverse_cons, List.map_append, List.append_assoc] at told
        exact tells _ _ _ told
    | error error =>
      rw [gives] at tells
      refine ⟨[exchange], later, ?_, ?_⟩
      · rw [List.map_cons, ← input, ← begins, ← ends]
        exact .last inTime gives
      · rw [List.map_singleton, gives, Outcome.ofContributions_error]
        exact tells _ _ _ .settle

end Process

/-! ## A step -/

/-- What is said of a step that calls a registered action: which calls it makes, with which outcome
it ends, and when. -/
def Step.Called (step : Step) (name : String) (registration : Registration) (action : Action)
    (limit : Option Nat) (context : Context) (input : Value) (begins : Nat)
    (exchanges : List Exchange) (outcome : Outcome) (ends : Nat) : Prop :=
  match step.loopOver with
  | none => ∃ exchange, exchanges = [exchange] ∧ exchange.InTime registration action limit ∧
      exchange.input = input ∧ exchange.begins = begins ∧ exchange.ends = ends ∧
      outcome = (step.contribution name limit exchange.callEnd).map
        fun value => some (.ofValue value)
  | some expression =>
    match resolve? expression context with
    | none | some .null => exchanges = [] ∧ outcome = .ofValue (.list []) ∧ ends = begins
    | some (.list items) => Exchange.Sequence registration action limit
        (step.contribution name limit) begins
        (items.map fun item => step.resolvedInput (context.bind itemName item)) exchanges ends ∧
      outcome = .ofContributions
        (exchanges.map fun exchange => step.contribution name limit exchange.callEnd)
    | some _ => exchanges = [] ∧ outcome = .error (.notIterable step.name expression) ∧
        ends = begins

/-- Once the action has been found the calls begin. -/
theorem callAction_found (usualLimit : Option Nat) (context : Context) {step : Step}
    (input : Value) {name : String} (calls : step.action = some name)
    (registration : Registration) :
    ∃ next, callAction usualLimit context step input = .lookUp name next ∧
      next (some registration) =
        match step.loopOver with
        | none => callOnce step name registration (step.timeout <|> usualLimit) input fun
          | .ok value => .settle (.ofValue value)
          | .error error => .settle (.error error)
        | some expression =>
          match iterated step expression context with
          | .ok items =>
            callForEach step name registration (step.timeout <|> usualLimit) context [] items
          | .error error => .settle (.error error) :=
  ⟨_, by rw [callAction, calls], rfl⟩

/-- A step that calls a registered action calls it for its one input or for each element of its
list, each call counts as the limit has it, and so the step ends. -/
theorem called_within_limits {table : ActionRegistry} (history : History table)
    (usualLimit : Option Nat) (context : Context) {step : Step} (input : Value) {name : String}
    {registration : Registration} {action : Action}
    (calls : step.action = some name) (found : table.find? name = some registration)
    (known : table.registrations[registration]?.map Registered.action = some action)
    (answers : (step.timeout <|> usualLimit) = none →
      ∀ earlier input, ∃ delay result, action.answer earlier input = .after delay result)
    (punctual : (callAction usualLimit context step input).Punctual history) :
    ∃ exchanges outcome last,
      (callAction usualLimit context step input).Exchanges history.moment ⟨0, history.moment 0⟩
        exchanges outcome last ∧
      (callAction usualLimit context step input).turn history.moment last.turn =
        (last.environment, .ended outcome) ∧
      step.Called name registration action (step.timeout <|> usualLimit) context input
        (history.moment 0).now exchanges outcome last.environment.now := by
  obtain ⟨next, form, goesOn⟩ := callAction_found usualLimit context input calls registration
  generalize callAction usualLimit context step input = whole at *
  subst form
  have stands : (Process.lookUp name next).Stands history (next (some registration))
      ⟨0, history.moment 0⟩ := by
    rw [← found]
    exact Process.Stands.lookUp ⟨rfl, .refl _⟩
  -- What is told of the step once the action has been found is told of the whole.
  suffices told : ∃ exchanges outcome last,
      (next (some registration)).Exchanges history.moment ⟨0, history.moment 0⟩ exchanges outcome
        last ∧
      step.Called name registration action (step.timeout <|> usualLimit) context input
        (history.moment 0).now exchanges outcome last.environment.now by
    obtain ⟨exchanges, outcome, last, told, called⟩ := told
    have whole : (Process.lookUp name next).Exchanges history.moment ⟨0, history.moment 0⟩
        exchanges outcome last := by
      refine .lookUp ?_
      rwa [(history.actions 0).find?, found]
    exact ⟨exchanges, outcome, last, whole, whole.turn_eq rfl, called⟩
  rw [goesOn] at stands ⊢
  cases loop : step.loopOver with
  | none =>
    simp only [loop] at stands ⊢
    obtain ⟨exchange, later, inTime, same, begins, ends, _, tells⟩ :=
      stands.callOnce known answers punctual
    refine ⟨[exchange], (step.contribution name (step.timeout <|> usualLimit)
      exchange.callEnd).map fun value => some (.ofValue value), later, tells _ _ _ ?_, ?_⟩
    · cases step.contribution name (step.timeout <|> usualLimit) exchange.callEnd <;> exact .settle
    · rw [Step.Called, loop]
      exact ⟨exchange, rfl, inTime, same, begins, ends, rfl⟩
  | some expression =>
    simp only [loop] at stands ⊢
    rw [iterated] at stands ⊢
    simp only [Step.Called, loop]
    cases resolved : resolve? expression context with
    | none =>
      simp only [resolved] at stands ⊢
      exact ⟨[], _, ⟨0, history.moment 0⟩, .settle, rfl, rfl, rfl⟩
    | some value =>
      cases value with
      | list items =>
        simp only [resolved] at stands ⊢
        obtain ⟨exchanges, last, sequence, told⟩ := stands.callForEach known answers punctual
        exact ⟨exchanges, _, last, told, sequence, rfl⟩
      | null | bool | number | text | record =>
        simp only [resolved] at stands ⊢
        exact ⟨[], _, ⟨0, history.moment 0⟩, .settle, rfl, rfl, rfl⟩

/-- A step that waits for several times in turn, no longer than three milliseconds each. -/
def impatientStep : Step where
  name := "pause"
  kind := .action
  action := some "wait"
  input := some (.ofFields [("duration", .text "$item")])
  output := none
  condition := none
  timeout := some 3
  fallback := some (.value (.text "late"))
  loopOver := some "$trigger"
  steps := []

/-- A context with three times to wait. -/
def waitingTimes : Context :=
  .start "workflow" "run" (.list [.ofNat 1, .ofNat 9, .ofNat 3])

/-- While a clock ticks the second call is cut; the third one takes just as long as it may. -/
theorem called_within_limits_waiting :
    ∃ exchanges outcome last,
      (callAction none waitingTimes impatientStep .null).Exchanges (Process.ticking .builtIn).moment
        ⟨0, (Process.ticking .builtIn).moment 0⟩ exchanges outcome last ∧
      impatientStep.Called "wait" 1 Action.wait (some 3) waitingTimes .null 0 exchanges outcome
        last.environment.now ∧
      outcome = .ofValue (.list [.ofFields [("waited", .ofNat 1)], .text "late",
        .ofFields [("waited", .ofNat 3)]]) := by
  have calls : impatientStep.action = some "wait" := rfl
  have found : ActionRegistry.builtIn.find? "wait" = some 1 := by decide
  obtain ⟨exchanges, outcome, last, told, turned, called⟩ :=
    called_within_limits (Process.ticking .builtIn) none waitingTimes .null calls found rfl
      (fun unlimited => by cases unlimited) (fun _ _ _ ahead => ahead)
  refine ⟨exchanges, outcome, last, told, called, ?_⟩
  have ended : ((callAction none waitingTimes impatientStep .null).turn
      (Process.ticking .builtIn).moment 7).2 = .ended (.ofValue (.list [
        .ofFields [("waited", .ofNat 1)], .text "late", .ofFields [("waited", .ofNat 3)]])) := rfl
  have first := Process.turn_ended (congrArg Prod.snd turned) (Nat.le_max_left last.turn 7)
  have second := Process.turn_ended ended (Nat.le_max_right last.turn 7)
  exact Activity.ended.inj (first.symm.trans second)

end Workflow
