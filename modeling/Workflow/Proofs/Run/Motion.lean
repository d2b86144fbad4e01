import Workflow.Proofs.Execution.Requests
import Workflow.Proofs.Review.Hall

/-!
# Groups in slow motion

The steps of a group go on side by side, and so do the steps of a group inside it. `Motion` is what
such a tree of steps is about to do, and `Motion.Step` is one move of one of them, whichever it is;
those that ask humans move as they do in the hall.

The engine lets them take turns in a fixed order. A turn of the engine is a sequence of such moves.
-/
namespace Workflow

/-- What a process that has been started is about to do. -/
inductive Motion where
  /-- It holds no seat. -/
  | alone (stage : Stage)
  | seated (seat : Seat) (stage : Stage)
  /-- Its members go on side by side. -/
  | together (members : List Motion) (next : List Outcome → Process)

/-- Moves one after another. -/
inductive Moves {State : Type} (step : State → Move → State → Prop) :
    State → List Move → State → Prop where
  | none (state : State) : Moves step state [] state
  | more {first second third : State} {move : Move} {moves : List Move}
      (one : step first move second) (others : Moves step second moves third) :
      Moves step first (move :: moves) third

namespace Moves

variable {State Other : Type} {step : State → Move → State → Prop}
  {first second third : State} {moves later : List Move} {move : Move}

/-- A single move. -/
theorem one (taken : step first move second) : Moves step first [move] second :=
  .more taken (.none second)

/-- Moves one after another, then others. -/
theorem append (earlier : Moves step first moves second) (others : Moves step second later third) :
    Moves step first (moves ++ later) third := by
  induction earlier with
  | none => exact others
  | more taken _ ih => exact .more taken (ih others)

/-- Moves within a part of a state are moves of the state. -/
theorem within {stepOther : Other → Move → Other → Prop} (place : State → Other)
    (same : ∀ {first move second}, step first move second →
      stepOther (place first) move (place second))
    (inside : Moves step first moves second) :
    Moves stepOther (place first) moves (place second) := by
  induction inside with
  | none => exact .none _
  | more taken _ ih => exact .more (same taken) ih

end Moves

namespace Motion

/-- It goes on with a process. -/
abbrev going (process : Process) : Motion := .alone (.going process)

/-- It has ended. -/
abbrev ended (outcome : Outcome) : Motion := .alone (.leaving outcome)

mutual

/-- The seats that are held. -/
def seats : Motion → List Seat
  | .alone _ => []
  | .seated seat _ => [seat]
  | .together members _ => seatsOf members

/-- The seats that members hold. -/
def seatsOf : List Motion → List Seat
  | [] => []
  | motion :: rest => motion.seats ++ seatsOf rest

end

/-- The seats of two lists of members are those of the first, then those of the second. -/
theorem seatsOf_append (first second : List Motion) :
    seatsOf (first ++ second) = seatsOf first ++ seatsOf second := by
  induction first with
  | nil => rfl
  | cons motion rest ih => rw [List.cons_append, seatsOf, seatsOf, ih, List.append_assoc]

/-- Members hold the seats that each of them holds. -/
theorem mem_seatsOf {members : List Motion} {seat : Seat} :
    seat ∈ seatsOf members ↔ ∃ member ∈ members, seat ∈ member.seats := by
  induction members with
  | nil => simp [seatsOf]
  | cons motion rest ih => simp [seatsOf, ih]

/-- One move of one of the steps that are in progress. -/
inductive Step : Environment × Motion → Move → Environment × Motion → Prop where
  /-- A step that holds no seat goes on. -/
  | goes {environment environment' : Environment} {stage stage' : Stage} {deed : Deed} (seat : Seat)
      (step : Stage.Step seat environment stage deed environment' stage')
      (quiet : environment'.desk = environment.desk) :
      Step (environment, .alone stage) .elsewhere (environment', .alone stage')
  /-- A step makes a request. -/
  | sits {environment environment' : Environment} {seat : Seat} (context : Context)
      (step : Workflow.Step) (input : Value)
      (made : environment.makeRequest (requestOf context step input) = (seat, environment')) :
      Step (environment, going (askHuman context step input)) (.sits seat)
        (environment', .seated seat
          (.announcing (requestOf context step input) (onceSeated context step input seat)))
  | does {environment environment' : Environment} {seat : Seat} {stage stage' : Stage} {deed : Deed}
      (step : Stage.Step seat environment stage deed environment' stage') :
      Step (environment, .seated seat stage) (.does seat deed) (environment', .seated seat stage')
  /-- A step leaves its seat and ends. -/
  | leaves (environment : Environment) (seat : Seat) (outcome : Outcome) :
      Step (environment, .seated seat (.leaving outcome)) (.leaves seat outcome)
        (environment.leave seat, ended outcome)
  /-- Processes begin that go on side by side. -/
  | forks (environment : Environment) (members : List Process) (next : List Outcome → Process) :
      Step (environment, going (.together members next)) .elsewhere
        (environment, .together (members.map going) next)
  /-- One of the members moves. -/
  | member {environment environment' : Environment} {motion motion' : Motion} {move : Move}
      (before after : List Motion) (next : List Outcome → Process)
      (step : Step (environment, motion) move (environment', motion')) :
      Step (environment, .together (before ++ motion :: after) next) move
        (environment', .together (before ++ motion' :: after) next)
  /-- All members have ended. -/
  | joins (environment : Environment) (outcomes : List Outcome) (next : List Outcome → Process) :
      Step (environment, .together (outcomes.map ended) next) .elsewhere
        (environment, going (next outcomes))

end Motion

/-! ## Turns of the engine -/

/-- What the slow motion shows of an activity, as the engine keeps it between its turns. -/
inductive Activity.Shows (execution : String) : Activity → Motion → Prop where
  | ended (outcome : Outcome) : Shows execution (.ended outcome) (.ended outcome)
  | calling (call : Call) {next : CallEnd → Process}
      (later : ∀ callEnd, ∃ names, (next callEnd).AsksApart execution names) :
      Shows execution (.calling call next) (.alone (.calling call next))
  | seated {seat : Seat} {body : Activity} {stage : Stage} (waits : body.At seat stage) :
      Shows execution (.seated seat body) (.seated seat stage)
  /-- It waits for its members. -/
  | together (pairs : List (Activity × Motion)) {next : List Outcome → Process}
      (members : ∀ pair ∈ pairs, pair.1.Shows execution pair.2)
      (later : ∀ outcomes, ∃ names, (next outcomes).AsksApart execution names) :
      Shows execution (.together (pairs.map Prod.fst) next) (.together (pairs.map Prod.snd) next)

namespace Motion

variable {execution : String}

/-- What a turn comes to, the slow motion comes to as well. -/
def Reaches (execution : String) (environment : Environment) (motion : Motion)
    (result : Environment × Activity) : Prop :=
  ∃ moves motion', Moves Step (environment, motion) moves (result.1, motion') ∧
    result.2.Shows execution motion'

/-- What is reached after some moves is reached from before them. -/
theorem Reaches.after {environment middle : Environment} {motion motion' : Motion}
    {moves : List Move} {result : Environment × Activity}
    (reaches : Reaches execution middle motion' result)
    (earlier : Moves Step (environment, motion) moves (middle, motion')) :
    Reaches execution environment motion result := by
  obtain ⟨later, last, others, shows⟩ := reaches
  exact ⟨moves ++ later, last, earlier.append others, shows⟩

/-- What stands for the seat of a step that holds none. -/
def noSeat : Seat := ⟨⟨"", ""⟩, 0, none⟩

/-- A step of the slow motion that does not concern the desk. -/
theorem moves_of_step {environment environment' : Environment} {stage stage' : Stage} {deed : Deed}
    (step : Stage.Step noSeat environment stage deed environment' stage')
    (quiet : environment'.desk = environment.desk) :
    Moves Step (environment, .alone stage) [.elsewhere] (environment', .alone stage') :=
  .one (.goes noSeat step quiet)

/-- The steps of the slow motion are moves of a step with a seat. -/
theorem moves_of_steps {seat : Seat} {environment environment' : Environment}
    {stage stage' : Stage} {deeds : List Deed}
    (steps : Stage.Steps seat environment stage deeds environment' stage') :
    Moves Step (environment, .seated seat stage) (deeds.map (.does seat))
      (environment', .seated seat stage') := by
  induction steps with
  | none => exact .none _
  | more step _ ih => exact .more (.does step) ih

/-- One who holds a seat leaves it as soon as he has ended. -/
theorem reaches_hold {seat : Seat} {environment : Environment} {stage : Stage}
    {result : Environment × Activity}
    (reached : Activity.Reached seat environment stage result) :
    Reaches execution environment (.seated seat stage) (result.2.hold seat result.1) := by
  obtain ⟨environment', activity⟩ := result
  obtain ⟨deeds, stage', steps, waits⟩ := reached
  have moves := moves_of_steps steps
  cases waits with
  | ended outcome =>
    exact ⟨_, _, moves.append (.one (.leaves environment' seat outcome)), .ended outcome⟩
  | calling call solo => exact ⟨_, _, moves, .seated (.calling call solo)⟩
  | awaiting deadline solo => exact ⟨_, _, moves, .seated (.awaiting deadline solo)⟩

/-- The first turn of a step that asks a human. -/
theorem reaches_askHuman (context : Context) (step : Workflow.Step) (input : Value)
    (environment : Environment) :
    Reaches execution environment (going (askHuman context step input))
      ((askHuman context step input).start environment) := by
  have made : environment.makeRequest (requestOf context step input) =
      ((environment.makeRequest (requestOf context step input)).1,
        (environment.makeRequest (requestOf context step input)).2) := rfl
  have reached := Activity.reached_announcing context step input
    (environment.makeRequest (requestOf context step input)).1
    (environment.makeRequest (requestOf context step input)).2
  exact (reaches_hold reached).after (.one (.sits context step input made))

/-! ## Turns of members -/

/-- The moves of a member are moves of the group. -/
theorem moves_of_member {environment environment' : Environment} {motion motion' : Motion}
    {moves : List Move} (before after : List Motion) (next : List Outcome → Process)
    (taken : Moves Step (environment, motion) moves (environment', motion')) :
    Moves Step (environment, .together (before ++ motion :: after) next) moves
      (environment', .together (before ++ motion' :: after) next) :=
  taken.within
    (fun state => (state.1, Motion.together (before ++ state.2 :: after) next))
    (fun step => .member before after next step)

/-- Let members take turns in order. -/
def inOrder (environment : Environment) :
    List (Environment → Environment × Activity) → Environment × List Activity
  | [] => (environment, [])
  | turn :: rest =>
    let (environment, activity) := turn environment
    let (environment, activities) := inOrder environment rest
    (environment, activity :: activities)

/-- Processes are started in order. -/
theorem startAll_eq (environment : Environment) (processes : List Process) :
    startAll environment processes =
      inOrder environment (processes.map fun process environment => process.start environment) := by
  induction processes generalizing environment with
  | nil => rfl
  | cons process rest ih => simp only [startAll, List.map_cons, inOrder, ih]

/-- Activities go on in order. -/
theorem resumeAll_eq (environment : Environment) (activities : List Activity) :
    Activity.resumeAll environment activities = inOrder environment
      (activities.map fun activity environment => activity.resume environment) := by
  induction activities generalizing environment with
  | nil => rfl
  | cons activity rest ih => simp only [Activity.resumeAll, List.map_cons, inOrder, ih]

/-- Members that take turns in order move one after another. -/
theorem reaches_inOrder {Item : Type} (items : List Item) (motionOf : Item → Motion)
    (turnOf : Item → Environment → Environment × Activity)
    (each : ∀ item ∈ items, ∀ environment,
      Reaches execution environment (motionOf item) (turnOf item environment))
    (done : List Motion) (next : List Outcome → Process) (environment : Environment) :
    ∃ moves, ∃ pairs : List (Activity × Motion),
      Moves Step (environment, .together (done ++ items.map motionOf) next) moves
        ((inOrder environment (items.map turnOf)).1, .together (done ++ pairs.map Prod.snd) next) ∧
      (inOrder environment (items.map turnOf)).2 = pairs.map Prod.fst ∧
      ∀ pair ∈ pairs, pair.1.Shows execution pair.2 := by
  induction items generalizing done environment with
  | nil => exact ⟨[], [], .none _, rfl, by simp⟩
  | cons item rest ih =>
    obtain ⟨moves, motion, taken, shows⟩ := each item List.mem_cons_self environment
    have others : ∀ item ∈ rest, ∀ environment,
        Reaches execution environment (motionOf item) (turnOf item environment) :=
      fun item later => each item (List.mem_cons_of_mem _ later)
    obtain ⟨later, pairs, more, same, all⟩ :=
      ih others (done ++ [motion]) (turnOf item environment).1
    have first := moves_of_member done (rest.map motionOf) next taken
    rw [List.append_assoc, List.append_assoc] at more
    refine ⟨moves ++ later, ((turnOf item environment).2, motion) :: pairs, first.append more,
      ?_, ?_⟩
    · exact congrArg ((turnOf item environment).2 :: ·) same
    · intro pair member
      rcases List.mem_cons.mp member with rfl | inRest
      · exact shows
      · exact all pair inRest

/-- Members have ended in slow motion when they have outcomes. -/
theorem ended_of_outcomes? {pairs : List (Activity × Motion)} {outcomes : List Outcome}
    (shows : ∀ pair ∈ pairs, pair.1.Shows execution pair.2)
    (all : Activity.outcomes? (pairs.map Prod.fst) = some outcomes) :
    pairs.map Prod.snd = outcomes.map ended := by
  induction pairs generalizing outcomes with
  | nil =>
    cases all
    rfl
  | cons pair rest ih =>
    obtain ⟨activity, motion⟩ := pair
    have first : activity.Shows execution motion := shows _ List.mem_cons_self
    cases first with
    | ended outcome =>
      rw [List.map_cons, Activity.outcomes?] at all
      obtain ⟨later, restAll, rfl⟩ := Option.map_eq_some_iff.mp all
      have others := ih (fun pair member => shows pair (List.mem_cons_of_mem _ member)) restAll
      rw [List.map_cons, others, List.map_cons]
    | calling | seated | together => cases all

/-- When all members have ended, what follows them begins. -/
theorem reaches_join {pairs : List (Activity × Motion)} {next : List Outcome → Process}
    (shows : ∀ pair ∈ pairs, pair.1.Shows execution pair.2)
    (later : ∀ outcomes, ∃ names, (next outcomes).AsksApart execution names)
    (starts : ∀ outcomes environment,
      Reaches execution environment (going (next outcomes)) ((next outcomes).start environment))
    (environment : Environment) :
    Reaches execution environment (.together (pairs.map Prod.snd) next)
      (match Activity.outcomes? (pairs.map Prod.fst) with
        | some outcomes => (next outcomes).start environment
        | none => (environment, .together (pairs.map Prod.fst) next)) := by
  cases all : Activity.outcomes? (pairs.map Prod.fst) with
  | some outcomes =>
    rw [ended_of_outcomes? shows all]
    exact (starts outcomes environment).after (.one (.joins environment outcomes next))
  | none => exact ⟨[], _, .none _, .together pairs shows later⟩

/-- Members take turns in order, and what follows them begins when all have ended. -/
theorem reaches_members {Item : Type} (items : List Item) (motionOf : Item → Motion)
    (turnOf : Item → Environment → Environment × Activity) {next : List Outcome → Process}
    (each : ∀ item ∈ items, ∀ environment,
      Reaches execution environment (motionOf item) (turnOf item environment))
    (later : ∀ outcomes, ∃ names, (next outcomes).AsksApart execution names)
    (starts : ∀ outcomes environment,
      Reaches execution environment (going (next outcomes)) ((next outcomes).start environment))
    (environment : Environment) {result : Environment × List Activity}
    (turned : result = inOrder environment (items.map turnOf)) :
    Reaches execution environment (.together (items.map motionOf) next)
      (match Activity.outcomes? result.2 with
        | some outcomes => (next outcomes).start result.1
        | none => (result.1, .together result.2 next)) := by
  obtain ⟨moves, pairs, taken, same, shows⟩ :=
    reaches_inOrder items motionOf turnOf each [] next environment
  rw [← turned] at taken same
  have joined := reaches_join shows later starts result.1
  rw [← same] at joined
  exact joined.after taken

/-- Starting a process is a sequence of moves. -/
theorem reaches_start {names : List String} {process : Process}
    (asks : process.AsksApart execution names) (environment : Environment) :
    Reaches execution environment (going process) (process.start environment) := by
  induction asks generalizing environment with
  | settle _ outcome => exact ⟨_, _, moves_of_step .settle rfl, .ended outcome⟩
  | warn warning _ ih => exact (ih _).after (moves_of_step .warn rfl)
  | lookUp action _ ih => exact (ih _ environment).after (moves_of_step .lookUp rfl)
  | @call names next registration input limit later ih =>
    rw [Process.start]
    have call : Stage.Step noSeat environment (.going (.call registration input limit next)) _ _ _ :=
      .call
    have begun := moves_of_step call (environment.desk_beginCall registration input limit)
    cases ended : (environment.beginCall registration input limit).2.callEnd?
        (environment.beginCall registration input limit).1 with
    | some callEnd =>
      simp only [ended]
      have hear : Stage.Step noSeat _ (.calling _ next) _ _ _ := .hear ended
      have heard := moves_of_step hear (Environment.desk_recordEnd _ _ _)
      exact ((ih callEnd _).after heard).after begun
    | none =>
      simp only [ended]
      exact ⟨_, _, begun, .calling _ fun callEnd => ⟨names, later callEnd⟩⟩
  | ask input own named => exact reaches_askHuman _ _ input environment
  | @together names next shares members apart within later ih ihLater =>
    have started : startAll environment (shares.map Prod.snd) =
        inOrder environment (shares.map fun share environment => share.2.start environment) := by
      rw [startAll_eq, List.map_map]
      rfl
    have joined := reaches_members shares (fun share => going share.2) _ ih
      (fun outcomes => ⟨names, later outcomes⟩) ihLater environment started
    have forked := Step.forks environment (shares.map Prod.snd) next
    rw [List.map_map] at forked
    rw [Process.start]
    exact joined.after (.one forked)

/-- Going on with an activity is a sequence of moves. -/
theorem reaches_resume {activity : Activity} {motion : Motion}
    (shows : activity.Shows execution motion) (environment : Environment) :
    Reaches execution environment motion (activity.resume environment) := by
  induction shows generalizing environment with
  | ended outcome => exact ⟨[], _, .none _, .ended outcome⟩
  | @calling call next later =>
    rw [Activity.resume]
    cases ended : environment.callEnd? call with
    | some callEnd =>
      obtain ⟨names, asks⟩ := later callEnd
      have hear : Stage.Step noSeat _ (.calling _ next) _ _ _ := .hear ended
      have heard := moves_of_step hear (Environment.desk_recordEnd _ _ _)
      exact (reaches_start asks _).after heard
    | none => exact ⟨[], _, .none _, .calling call later⟩
  | seated waits => exact reaches_hold (waits.resume environment)
  | @together pairs next members later ih =>
    have resumed : Activity.resumeAll environment (pairs.map Prod.fst) =
        inOrder environment (pairs.map fun pair environment => pair.1.resume environment) := by
      rw [resumeAll_eq, List.map_map]
      rfl
    have starts : ∀ outcomes environment, Reaches execution environment (going (next outcomes))
        ((next outcomes).start environment) := by
      intro outcomes environment
      obtain ⟨names, asks⟩ := later outcomes
      exact reaches_start asks environment
    rw [Activity.resume]
    exact reaches_members pairs Prod.snd _ ih later starts environment resumed

end Motion

end Workflow
