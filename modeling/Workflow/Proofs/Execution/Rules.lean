import Workflow.Proofs.Execution.Environment

/-!
# Processes that obey rules

Rules say which actions a process may rely on, whom it may ask, of what it may warn and how it may
end. A process obeys them if each of its nodes does, under all answers of the engine that the rules
admit. `Rules.Keeps` lists what facts about seats and their environment must survive: one field for
each sort of operation. From it the main results follow for every turn, whatever the process: what
is left of the process obeys, and the facts hold of the seats that are held then.
-/
namespace Workflow

/-! ## Operations that only count and record -/

/-- The same actions are registered, but they may have been called in between. -/
structure ActionRegistry.Same (first later : ActionRegistry) : Prop where
  /-- The registration under each name. -/
  names : later.names = first.names
  /-- The action of each registration. -/
  actions : later.registrations.map Registered.action = first.registrations.map Registered.action

namespace ActionRegistry

/-- A registry has the same actions as itself. -/
theorem Same.refl (registry : ActionRegistry) : registry.Same registry := ⟨rfl, rfl⟩

/-- Registries with the same actions as one between them have the same actions. -/
theorem Same.trans {first second third : ActionRegistry} (earlier : first.Same second)
    (later : second.Same third) : first.Same third :=
  ⟨later.names.trans earlier.names, later.actions.trans earlier.actions⟩

/-- To have the same actions is mutual. -/
theorem Same.symm {first second : ActionRegistry} (same : first.Same second) :
    second.Same first := ⟨same.names.symm, same.actions.symm⟩

/-- The same actions are found under the same names. -/
theorem Same.find? {first later : ActionRegistry} (same : first.Same later) (name : String) :
    later.find? name = first.find? name := by
  rw [ActionRegistry.find?, same.names, ← ActionRegistry.find?]

/-- A call is counted and changes nothing else in the table. -/
theorem same_call (registry : ActionRegistry) (registration : Registration) (input : Value) :
    registry.Same (registry.call registration input).2.2 := by
  unfold call
  split
  · exact .refl registry
  next registered found =>
    obtain ⟨inside, rfl⟩ := List.getElem?_eq_some_iff.mp found
    refine ⟨rfl, ?_⟩
    have among : registration < (registry.registrations.map Registered.action).length := by
      simpa using inside
    have own : registry.registrations[registration].action =
        (registry.registrations.map Registered.action)[registration] := by
      simp
    rw [List.map_set, own, List.set_getElem_self]

end ActionRegistry

namespace Environment

/-- Calls, alarms, records and events may have been added, but nothing else has happened. -/
structure Quiet (first later : Environment) : Prop where
  now : later.now = first.now
  /-- Actions may have been called. -/
  actions : first.actions.Same later.actions
  desk : later.desk = first.desk
  warnings : later.warnings = first.warnings

/-- To do nothing is quiet. -/
theorem Quiet.refl (environment : Environment) : environment.Quiet environment :=
  ⟨rfl, .refl _, rfl, rfl⟩

/-- What is done quietly one after another is done quietly. -/
theorem Quiet.trans {first second third : Environment} (earlier : first.Quiet second)
    (later : second.Quiet third) : first.Quiet third :=
  ⟨later.now.trans earlier.now, earlier.actions.trans later.actions,
    later.desk.trans earlier.desk, later.warnings.trans earlier.warnings⟩

variable (environment : Environment)

/-- To record something about a call is quiet. -/
theorem quiet_record (recordedAs : Option String) (event : CallEvent) :
    environment.Quiet (environment.record recordedAs event) := by
  cases recordedAs with
  | none => exact .refl environment
  | some action => exact ⟨rfl, .refl _, rfl, rfl⟩

/-- To set a limit is quiet. -/
theorem quiet_setLimit (limit : Option Nat) :
    environment.Quiet (environment.setLimit limit).2 := by
  cases limit with
  | none => exact .refl environment
  | some limit => exact ⟨rfl, .refl _, rfl, rfl⟩

/-- To publish an event is quiet. -/
theorem quiet_publish (event : Event) : environment.Quiet (environment.publish event) :=
  ⟨rfl, .refl _, rfl, rfl⟩

/-- To begin a call is quiet. -/
theorem quiet_beginCall (registration : Registration) (input : Value) (limit : Option Nat) :
    environment.Quiet (environment.beginCall registration input limit).2 := by
  have counted : environment.Quiet
      { environment with actions := (environment.actions.call registration input).2.2 } :=
    ⟨rfl, environment.actions.same_call registration input, rfl, rfl⟩
  have begun := counted.trans (quiet_record _
    (environment.actions.call registration input).2.1 (.started input))
  unfold beginCall
  simp only
  refine begun.trans (Quiet.trans ?_ (quiet_setLimit _ limit))
  split
  · exact ⟨rfl, .refl _, rfl, rfl⟩
  · exact .refl _

/-- To record the end of a call is quiet. -/
theorem quiet_recordEnd (call : Call) (callEnd : CallEnd) :
    environment.Quiet (environment.recordEnd call callEnd) := by
  unfold recordEnd
  split <;> exact environment.quiet_record _ _

end Environment

/-! ## Rules -/

/-- What a process may do. -/
structure Rules where
  /-- The actions that are found whenever they are looked up. -/
  registered : String → Prop
  /-- The keys under which humans may be asked. -/
  asks : ReviewKey → Prop
  /-- The warnings that may be given. -/
  tolerates : Warning → Prop
  /-- How a process may end. -/
  allows : Outcome → Prop
  /-- Whoever makes a request cannot help replacing an earlier one. -/
  replaces : ∀ key, asks key → tolerates (.requestReplaced key)

/-- Rules that forbid nothing. -/
def Rules.free : Rules where
  registered _ := False
  asks _ := True
  tolerates _ := True
  allows _ := True
  replaces _ _ := trivial

/-- Every node of a process obeys rules. -/
inductive Process.Obeys (rules : Rules) : Process → Prop where
  | settle {outcome : Outcome} (allowed : rules.allows outcome) : Obeys rules (.settle outcome)
  | warn {warning : Warning} {next : Process} (tolerated : rules.tolerates warning)
      (later : next.Obeys rules) : Obeys rules (.warn warning next)
  /-- It may rely on an action that is registered. -/
  | lookUp {action : String} {next : Option Registration → Process}
      (later : ∀ found, (rules.registered action → found.isSome) → (next found).Obeys rules) :
      Obeys rules (.lookUp action next)
  | call (registration : Registration) (input : Value) (limit : Option Nat)
      {next : CallEnd → Process} (later : ∀ callEnd, (next callEnd).Obeys rules) :
      Obeys rules (.call registration input limit next)
  | review {request : Request} {body : Seat → Process} (asks : rules.asks request.key)
      (later : ∀ seat, seat.key = request.key → (body seat).Obeys rules) :
      Obeys rules (.review request body)
  | await {seat : Seat} (limit : Option Nat) {next : Option Decision → Process}
      (asks : rules.asks seat.key) (later : ∀ decision, (next decision).Obeys rules) :
      Obeys rules (.await seat limit next)
  /-- It may rely on outcomes that are allowed. -/
  | together {members : List Process} {next : List Outcome → Process}
      (each : ∀ member ∈ members, member.Obeys rules)
      (later : ∀ outcomes, (∀ outcome ∈ outcomes, rules.allows outcome) →
        (next outcomes).Obeys rules) : Obeys rules (.together members next)

/-- What is left of a process obeys rules. -/
inductive Activity.Obeys (rules : Rules) : Activity → Prop where
  | ended {outcome : Outcome} (allowed : rules.allows outcome) : Obeys rules (.ended outcome)
  | calling (call : Call) {next : CallEnd → Process}
      (later : ∀ callEnd, (next callEnd).Obeys rules) : Obeys rules (.calling call next)
  | seated {seat : Seat} {body : Activity} (asks : rules.asks seat.key)
      (inside : body.Obeys rules) : Obeys rules (.seated seat body)
  | awaiting {seat : Seat} (deadline : Option Alarm) {next : Option Decision → Process}
      (asks : rules.asks seat.key) (later : ∀ decision, (next decision).Obeys rules) :
      Obeys rules (.awaiting seat deadline next)
  | together {members : List Activity} {next : List Outcome → Process}
      (each : ∀ member ∈ members, member.Obeys rules)
      (later : ∀ outcomes, (∀ outcome ∈ outcomes, rules.allows outcome) →
        (next outcomes).Obeys rules) : Obeys rules (.together members next)

namespace Activity

mutual

/-- The seats that an activity holds. -/
def seats : Activity → List Seat
  | .ended _ => []
  | .calling _ _ => []
  | .seated seat body => seat :: body.seats
  | .awaiting _ _ _ => []
  | .together members _ => allSeats members

/-- The seats that activities hold. -/
def allSeats : List Activity → List Seat
  | [] => []
  | activity :: rest => activity.seats ++ allSeats rest

end

/-- Activities have outcomes when each of them has ended with its own. -/
theorem outcomes?_eq_some {activities : List Activity} {outcomes : List Outcome} :
    outcomes? activities = some outcomes ↔ activities = outcomes.map .ended := by
  induction activities generalizing outcomes with
  | nil => cases outcomes <;> simp [outcomes?]
  | cons activity rest ih =>
    cases activity with
    | ended outcome =>
      cases outcomes with
      | nil => simp [outcomes?]
      | cons first others =>
        simp only [outcomes?, Option.map_eq_some_iff, ih, List.cons.injEq, List.map_cons,
          ended.injEq]
        constructor
        · rintro ⟨later, all, same, rfl⟩
          exact ⟨same, all⟩
        · rintro ⟨same, all⟩
          exact ⟨others, all, same, rfl⟩
    | calling | seated | awaiting | together => cases outcomes <;> simp [outcomes?]

/-- Whoever has ended holds no seat. -/
@[simp] theorem allSeats_ended (outcomes : List Outcome) :
    allSeats (outcomes.map .ended) = [] := by
  induction outcomes with
  | nil => rfl
  | cons outcome rest ih => rw [List.map_cons, allSeats, seats, ih, List.append_nil]

/-- Whoever obeys the rules holds seats only where the rules let it ask. -/
theorem Obeys.asks_seats {rules : Rules} {activity : Activity} (obeys : activity.Obeys rules) :
    ∀ seat ∈ activity.seats, rules.asks seat.key := by
  induction obeys with
  | ended | calling | awaiting => simp [seats]
  | seated asks _ ih => exact List.forall_mem_cons.mpr ⟨asks, ih⟩
  | @together members _ _ _ ih =>
    rw [seats]
    clear * - ih
    induction members with
    | nil => simp [allSeats]
    | cons member rest ihRest =>
      obtain ⟨first, others⟩ := List.forall_mem_cons.mp ih
      exact List.forall_mem_append.mpr ⟨first, ihRest others⟩

end Activity

/-! ## Facts that survive -/

/-- Facts about the seats that are held in an environment survive whatever the rules admit. -/
structure Rules.Keeps (rules : Rules) (facts : List Seat → Environment → Prop) : Prop where
  /-- The order in which the seats are counted does not matter. -/
  order : ∀ {seats seats' : List Seat} {environment : Environment}, facts seats environment →
    seats.Perm seats' → facts seats' environment
  /-- Calls, alarms, records and events do not matter. -/
  quiet : ∀ {seats : List Seat} {environment later : Environment}, facts seats environment →
    environment.Quiet later → facts seats later
  warn : ∀ {seats : List Seat} {environment : Environment} (warning : Warning),
    facts seats environment → rules.tolerates warning → facts seats (environment.warn warning)
  /-- What is registered is found. -/
  found : ∀ {seats : List Seat} {environment : Environment} {action : String},
    facts seats environment → rules.registered action →
      (environment.actions.find? action).isSome
  sitDown : ∀ {seats : List Seat} {environment : Environment} (request : Request),
    facts seats environment → rules.asks request.key →
      facts ((environment.desk.sitDown request).1 :: seats)
        { environment with desk := (environment.desk.sitDown request).2 }
  discard : ∀ {seats : List Seat} {environment : Environment} (key : ReviewKey),
    facts seats environment → rules.asks key →
      facts seats { environment with desk := environment.desk.discard key }
  leave : ∀ {seats : List Seat} {environment : Environment} {seat : Seat},
    facts (seat :: seats) environment → rules.asks seat.key →
      facts seats (environment.leave seat)

/-- Where the rules rely on no action, nothing needs to be known of an environment. -/
theorem Rules.keeps_true {rules : Rules} (free : ∀ action, ¬rules.registered action) :
    rules.Keeps fun _ _ => True where
  order _ _ := trivial
  quiet _ _ := trivial
  warn _ _ _ := trivial
  found _ registered := absurd registered (free _)
  sitDown _ _ _ := trivial
  discard _ _ _ := trivial
  leave _ _ := trivial

namespace Rules.Keeps

variable {rules : Rules} {facts : List Seat → Environment → Prop} {seats : List Seat}
  {environment : Environment}

/-- A request takes a seat; it may replace another one, of which there is a warning. -/
theorem makeRequest (keeps : rules.Keeps facts) (known : facts seats environment)
    (request : Request) (asks : rules.asks request.key) :
    facts ((environment.makeRequest request).1 :: seats) (environment.makeRequest request).2 := by
  have seated := keeps.sitDown request known asks
  unfold Environment.makeRequest
  dsimp only
  split
  · exact keeps.warn _ seated (rules.replaces _ asks)
  · exact seated

/-- Looking for a decision discards at most the request under the key. -/
theorem lookForMail (keeps : rules.Keeps facts) (known : facts seats environment) {seat : Seat}
    (deadline : Option Alarm) (asks : rules.asks seat.key) :
    facts seats (environment.lookForMail seat deadline).2 := by
  unfold Environment.lookForMail Environment.expire
  split
  case h_1 | h_2 | h_3 => exact known
  case h_4 =>
    split
    case isFalse => exact known
    case isTrue =>
      split
      · exact keeps.discard seat.key known asks
      · exact known

end Rules.Keeps

/-- What a turn has come to obeys the rules, and the facts hold with the seats that it holds. -/
def Rules.Hold (rules : Rules) (facts : List Seat → Environment → Prop) (others : List Seat)
    (result : Environment × Activity) : Prop :=
  result.2.Obeys rules ∧ facts (result.2.seats ++ others) result.1

section Turns

variable {rules : Rules} {facts : List Seat → Environment → Prop}

/-- A seat is held until the body has ended. -/
theorem Rules.Hold.hold (keeps : rules.Keeps facts) {seat : Seat} {others : List Seat}
    {result : Environment × Activity} (inside : rules.Hold facts (seat :: others) result)
    (asks : rules.asks seat.key) : rules.Hold facts others (result.2.hold seat result.1) := by
  obtain ⟨environment, body⟩ := result
  obtain ⟨obeys, known⟩ := inside
  have held : rules.Hold facts others (environment, .seated seat body) :=
    ⟨.seated asks obeys, keeps.order known List.perm_middle⟩
  cases body with
  | ended outcome => exact ⟨obeys, keeps.leave known asks⟩
  | calling | seated | awaiting | together => exact held

/-- When all members have ended, what follows them begins. -/
theorem Rules.Hold.join {next : List Outcome → Process}
    {others : List Seat} {environment : Environment} {members : List Activity}
    (later : ∀ outcomes, (∀ outcome ∈ outcomes, rules.allows outcome) →
      (next outcomes).Obeys rules)
    (starts : ∀ outcomes, (∀ outcome ∈ outcomes, rules.allows outcome) →
      ∀ environment, facts others environment →
        rules.Hold facts others ((next outcomes).start environment))
    (each : ∀ member ∈ members, member.Obeys rules)
    (known : facts (Activity.allSeats members ++ others) environment) :
    rules.Hold facts others (match Activity.outcomes? members with
      | some outcomes => (next outcomes).start environment
      | none => (environment, .together members next)) := by
  cases all : Activity.outcomes? members with
  | none => exact ⟨.together each later, known⟩
  | some outcomes =>
    obtain rfl := Activity.outcomes?_eq_some.mp all
    rw [Activity.allSeats_ended] at known
    refine starts outcomes (fun outcome member => ?_) environment known
    cases each _ (List.mem_map_of_mem member) with
    | ended allowed => exact allowed

/-- Members that are started in order keep the facts. -/
theorem Rules.Keeps.startAll (keeps : rules.Keeps facts) {members : List Process}
    (each : ∀ member ∈ members, ∀ environment others, facts others environment →
      rules.Hold facts others (member.start environment))
    (environment : Environment) (others : List Seat) (known : facts others environment) :
    (∀ activity ∈ (startAll environment members).2, activity.Obeys rules) ∧
      facts (Activity.allSeats (startAll environment members).2 ++ others)
        (startAll environment members).1 := by
  induction members generalizing environment others with
  | nil => exact ⟨by simp [Workflow.startAll], known⟩
  | cons member rest ih =>
    obtain ⟨firstObeys, first⟩ := each member List.mem_cons_self environment others known
    obtain ⟨restObey, last⟩ := ih (fun other inRest => each other (List.mem_cons_of_mem _ inRest))
      (member.start environment).1 _ first
    refine ⟨List.forall_mem_cons.mpr ⟨firstObeys, restObey⟩, ?_⟩
    refine keeps.order last ?_
    rw [← List.append_assoc]
    exact List.perm_append_comm.append_right others

/-- A process that obeys the rules keeps the facts when it is started. -/
theorem Process.Obeys.start (keeps : rules.Keeps facts) {process : Process}
    (obeys : process.Obeys rules) (environment : Environment) (others : List Seat)
    (known : facts others environment) :
    rules.Hold facts others (process.start environment) := by
  induction obeys generalizing environment others with
  | settle allowed => exact ⟨.ended allowed, known⟩
  | warn tolerated _ ih =>
    rw [Process.start]
    exact ih _ others (keeps.warn _ known tolerated)
  | lookUp _ ih =>
    rw [Process.start]
    exact ih _ (keeps.found known) environment others known
  | call registration input limit later ih =>
    have begun := keeps.quiet known (environment.quiet_beginCall registration input limit)
    rw [Process.start]
    dsimp only
    split
    next callEnd _ => exact ih callEnd _ others (keeps.quiet begun (Environment.quiet_recordEnd ..))
    next => exact ⟨.calling _ later, begun⟩
  | review asks later ih =>
    rename_i request body
    have seated := keeps.makeRequest known request asks
    have announced := keeps.quiet seated (Environment.quiet_publish _ (.reviewRequested request))
    rw [Process.start]
    exact (ih _ rfl _ _ announced).hold keeps asks
  | await limit asks later ih =>
    have begun := keeps.quiet known (environment.quiet_setLimit limit)
    have looked := keeps.lookForMail begun (environment.setLimit limit).1 asks
    rw [Process.start]
    dsimp only
    split
    next decision _ mail =>
      rw [mail] at looked
      exact ih decision _ others looked
    next deadline _ mail =>
      rw [mail] at looked
      exact ⟨.awaiting deadline asks later, looked⟩
  | together each later ihEach ihLater =>
    obtain ⟨obey, known⟩ := keeps.startAll ihEach environment others known
    rw [Process.start]
    exact Rules.Hold.join later
      (fun outcomes allowed environment => ihLater outcomes allowed environment others) obey known

/-- Members that go on in order keep the facts. -/
theorem Rules.Keeps.resumeAll (keeps : rules.Keeps facts) {members : List Activity}
    (each : ∀ member ∈ members, ∀ environment others, facts (member.seats ++ others) environment →
      rules.Hold facts others (member.resume environment))
    (environment : Environment) (others : List Seat)
    (known : facts (Activity.allSeats members ++ others) environment) :
    (∀ activity ∈ (Activity.resumeAll environment members).2, activity.Obeys rules) ∧
      facts (Activity.allSeats (Activity.resumeAll environment members).2 ++ others)
        (Activity.resumeAll environment members).1 := by
  induction members generalizing environment others with
  | nil => exact ⟨by simp [Activity.resumeAll], known⟩
  | cons member rest ih =>
    rw [Activity.allSeats, List.append_assoc] at known
    obtain ⟨firstObeys, first⟩ := each member List.mem_cons_self environment _ known
    -- The seats of the first member now count among those of the others.
    have before : facts (Activity.allSeats rest ++ ((member.resume environment).2.seats ++ others))
        (member.resume environment).1 := by
      refine keeps.order first ?_
      rw [← List.append_assoc, ← List.append_assoc]
      exact List.perm_append_comm.append_right others
    obtain ⟨restObey, last⟩ := ih (fun other inRest => each other (List.mem_cons_of_mem _ inRest))
      (member.resume environment).1 _ before
    refine ⟨List.forall_mem_cons.mpr ⟨firstObeys, restObey⟩, ?_⟩
    refine keeps.order last ?_
    rw [← List.append_assoc]
    exact List.perm_append_comm.append_right others

/-- What is left of a process that obeys the rules keeps the facts when it goes on. -/
theorem Activity.Obeys.resume (keeps : rules.Keeps facts) {activity : Activity}
    (obeys : activity.Obeys rules) (environment : Environment) (others : List Seat)
    (known : facts (activity.seats ++ others) environment) :
    rules.Hold facts others (activity.resume environment) := by
  induction obeys generalizing environment others with
  | ended allowed => exact ⟨.ended allowed, known⟩
  | calling call later =>
    rw [Activity.resume]
    split
    next callEnd _ =>
      exact (later callEnd).start keeps _ others
        (keeps.quiet known (environment.quiet_recordEnd call callEnd))
    next => exact ⟨.calling call later, known⟩
  | seated asks _ ih =>
    rw [Activity.seats] at known
    rw [Activity.resume]
    exact (ih environment _ (keeps.order known List.perm_middle.symm)).hold keeps asks
  | awaiting deadline asks later =>
    have looked := keeps.lookForMail known deadline asks
    rw [Activity.resume]
    split
    next decision _ mail =>
      rw [mail] at looked
      exact (later decision).start keeps _ others looked
    next deadline _ mail =>
      rw [mail] at looked
      exact ⟨.awaiting deadline asks later, looked⟩
  | together _ later ih =>
    obtain ⟨obey, known⟩ := keeps.resumeAll ih environment others known
    rw [Activity.resume]
    exact Rules.Hold.join later
      (fun outcomes allowed environment => (later outcomes allowed).start keeps environment others)
      obey known

/-- Dropping what is left of a process that obeys the rules keeps the facts. -/
theorem Activity.Obeys.drop (keeps : rules.Keeps facts) {activity : Activity}
    (obeys : activity.Obeys rules) (environment : Environment) (others : List Seat)
    (known : facts (activity.seats ++ others) environment) :
    facts others (activity.drop environment) := by
  induction obeys generalizing environment others with
  | ended => exact known
  | calling call => exact keeps.quiet known (environment.quiet_record _ _)
  | seated asks _ ih =>
    rw [Activity.drop]
    exact keeps.leave (ih environment _ (keeps.order known List.perm_middle.symm)) asks
  | awaiting => exact known
  | @together members _ _ _ ih =>
    rw [Activity.drop]
    rw [Activity.seats] at known
    clear * - ih known
    induction members generalizing environment with
    | nil => exact known
    | cons member rest ihRest =>
      rw [Activity.allSeats, List.append_assoc] at known
      rw [Activity.dropAll]
      exact ihRest (fun other inRest => ih other (List.mem_cons_of_mem _ inRest)) _
        (ih member List.mem_cons_self environment _ known)

end Turns

/-! ## Processes without rules -/

/-- Rules that forbid nothing rely on no action. -/
theorem Rules.free_registered : ∀ action, ¬Rules.free.registered action := fun _ => id

mutual

/-- Every process obeys rules that forbid nothing. -/
theorem Process.obeys_free : (process : Process) → process.Obeys Rules.free
  | .settle _ => .settle trivial
  | .warn _ next => .warn trivial next.obeys_free
  | .lookUp _ next => .lookUp fun found _ => (next found).obeys_free
  | .call registration input limit next =>
    .call registration input limit fun callEnd => (next callEnd).obeys_free
  | .review _ body => .review trivial fun seat _ => (body seat).obeys_free
  | .await _ limit next => .await limit trivial fun decision => (next decision).obeys_free
  | .together members next =>
    .together (all_obey_free members) fun outcomes _ => (next outcomes).obeys_free

/-- All processes of a list obey rules that forbid nothing. -/
theorem all_obey_free : (members : List Process) → ∀ member ∈ members, member.Obeys Rules.free
  | [] => by simp
  | first :: rest => List.forall_mem_cons.mpr ⟨first.obeys_free, all_obey_free rest⟩

end

mutual

/-- What is left of a process obeys rules that forbid nothing. -/
theorem Activity.obeys_free : (activity : Activity) → activity.Obeys Rules.free
  | .ended _ => .ended trivial
  | .calling call next => .calling call fun callEnd => (next callEnd).obeys_free
  | .seated _ body => .seated trivial body.obeys_free
  | .awaiting _ deadline next => .awaiting deadline trivial fun decision =>
    (next decision).obeys_free
  | .together members next =>
    .together (each_obeys_free members) fun outcomes _ => (next outcomes).obeys_free

/-- All activities of a list obey rules that forbid nothing. -/
theorem each_obeys_free : (members : List Activity) → ∀ member ∈ members, member.Obeys Rules.free
  | [] => by simp
  | first :: rest => List.forall_mem_cons.mpr ⟨first.obeys_free, each_obeys_free rest⟩

end

end Workflow
