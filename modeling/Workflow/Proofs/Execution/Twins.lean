import Workflow.Proofs.Execution.Histories
import Workflow.Proofs.Review.Mirror

/-!
# One execution in two environments

The same process is started in an environment that it shares with others and in one of its own. What
it comes to differs only in the numbers of boxes and alarms. `Process.Alike` and `Activity.Alike`
say so node by node; a node may wait only for a box of a pair of seats that is held around it.

`Environment.Mirror` is what carries this from one turn to the next: the time is the same, the same
actions are registered and answer alike, and the desks agree on the pairs of seats that are held.
-/
namespace Workflow

/-! ## Processes and activities that are alike -/

/-- Two processes do the same at the pairs of seats in scope. -/
inductive Process.Alike (execution : String) : List (Seat × Seat) → Process → Process → Prop where
  | settle {scope : List (Seat × Seat)} (outcome : Outcome) :
      Alike execution scope (.settle outcome) (.settle outcome)
  | warn {scope : List (Seat × Seat)} {next next' : Process} (warning : Warning)
      (later : next.Alike execution scope next') :
      Alike execution scope (.warn warning next) (.warn warning next')
  | lookUp {scope : List (Seat × Seat)} {next next' : Option Registration → Process}
      (action : String) (later : ∀ found, (next found).Alike execution scope (next' found)) :
      Alike execution scope (.lookUp action next) (.lookUp action next')
  | call {scope : List (Seat × Seat)} {next next' : CallEnd → Process}
      (registration : Registration) (input : Value) (limit : Option Nat)
      (later : ∀ callEnd, (next callEnd).Alike execution scope (next' callEnd)) :
      Alike execution scope (.call registration input limit next)
        (.call registration input limit next')
  | review {scope : List (Seat × Seat)} {request : Request} {body body' : Seat → Process}
      (ours : request.execution = execution)
      (later : ∀ pair : Seat × Seat,
        (body pair.1).Alike execution (pair :: scope) (body' pair.2)) :
      Alike execution scope (.review request body) (.review request body')
  | await {scope : List (Seat × Seat)} {next next' : Option Decision → Process}
      {pair : Seat × Seat} (known : pair ∈ scope) (limit : Option Nat)
      (later : ∀ decision, (next decision).Alike execution scope (next' decision)) :
      Alike execution scope (.await pair.1 limit next) (.await pair.2 limit next')
  /-- Members wait for no seat that is held around them. -/
  | together {scope : List (Seat × Seat)} {members : List Process}
      {next next' : List Outcome → Process}
      (each : ∀ member ∈ members, member.Alike execution [] member)
      (later : ∀ outcomes, (next outcomes).Alike execution scope (next' outcomes)) :
      Alike execution scope (.together members next) (.together members next')

/-- Two calls have the same answer, and their alarms ring at the same times. -/
structure Call.Alike (call call' : Call) : Prop where
  answer : call'.answer.map (fun answer => (answer.1.time, answer.2)) =
    call.answer.map (fun answer => (answer.1.time, answer.2))
  cutAt : call'.cutAt.map Alarm.time = call.cutAt.map Alarm.time

/-- What a member of a group has come to in two environments, with the pairs of seats it holds. -/
structure Twin where
  first : Activity
  second : Activity
  held : List (Seat × Seat)

/-- Two activities do the same at the pairs of seats in scope, and hold pairs of seats. -/
inductive Activity.Alike (execution : String) :
    List (Seat × Seat) → List (Seat × Seat) → Activity → Activity → Prop where
  | ended {scope : List (Seat × Seat)} (outcome : Outcome) :
      Alike execution scope [] (.ended outcome) (.ended outcome)
  | calling {scope : List (Seat × Seat)} {call call' : Call} {next next' : CallEnd → Process}
      (same : call.Alike call')
      (later : ∀ callEnd, (next callEnd).Alike execution scope (next' callEnd)) :
      Alike execution scope [] (.calling call next) (.calling call' next')
  | seated {scope held : List (Seat × Seat)} {body body' : Activity} (pair : Seat × Seat)
      (inside : body.Alike execution (pair :: scope) held body') :
      Alike execution scope (pair :: held) (.seated pair.1 body) (.seated pair.2 body')
  | awaiting {scope : List (Seat × Seat)} {deadline deadline' : Option Alarm}
      {next next' : Option Decision → Process} {pair : Seat × Seat} (known : pair ∈ scope)
      (same : deadline'.map Alarm.time = deadline.map Alarm.time)
      (later : ∀ decision, (next decision).Alike execution scope (next' decision)) :
      Alike execution scope [] (.awaiting pair.1 deadline next) (.awaiting pair.2 deadline' next')
  | together {scope : List (Seat × Seat)} {members : List Twin}
      {next next' : List Outcome → Process}
      (each : ∀ member ∈ members, member.first.Alike execution [] member.held member.second)
      (later : ∀ outcomes, (next outcomes).Alike execution scope (next' outcomes)) :
      Alike execution scope (members.flatMap Twin.held) (.together (members.map Twin.first) next)
        (.together (members.map Twin.second) next')

/-- Each member of a group does the same in both environments. -/
def Twin.Alike (execution : String) (members : List Twin) : Prop :=
  ∀ member ∈ members, member.first.Alike execution [] member.held member.second

/-- Members that are alike have ended with the same outcomes, or neither all of the ones nor all of
the others have ended. -/
theorem Twin.outcomes?_eq {execution : String} {members : List Twin}
    (each : Twin.Alike execution members) :
    Activity.outcomes? (members.map Twin.second) =
      Activity.outcomes? (members.map Twin.first) := by
  induction members with
  | nil => rfl
  | cons member rest ih =>
    obtain ⟨own, others⟩ := List.forall_mem_cons.mp each
    obtain ⟨first, second, held⟩ := member
    cases own with
    | ended outcome => simp only [List.map_cons, Activity.outcomes?, ih others]
    | calling | seated | awaiting | together => rfl

/-- Members that have ended hold no seats. -/
theorem Twin.held_of_ended {execution : String} {members : List Twin}
    (each : Twin.Alike execution members) {outcomes : List Outcome}
    (ended : Activity.outcomes? (members.map Twin.first) = some outcomes) :
    members.flatMap Twin.held = [] := by
  have all := Activity.outcomes?_eq_some.mp ended
  rw [List.flatMap_eq_nil_iff]
  intro member known
  have finished : member.first ∈ outcomes.map Activity.ended := all ▸ List.mem_map_of_mem known
  obtain ⟨outcome, -, same⟩ := List.mem_map.mp finished
  have alike := each member known
  obtain ⟨first, second, held⟩ := member
  obtain rfl := same
  cases alike
  rfl

/-! ## Environments that agree -/

namespace Environment

/-- To make a request takes no time and registers no action. -/
theorem sameMoment_makeRequest (environment : Environment) (request : Request) :
    Process.SameMoment environment (environment.makeRequest request).2 := by
  unfold makeRequest
  dsimp only
  split <;> exact ⟨rfl, .refl _⟩

/-- A shared environment and an own one agree on what concerns an execution. -/
structure Mirror (execution : String) (pairs : List (Seat × Seat)) (foreign : List Seat)
    (shared own : Environment) : Prop where
  now : own.now = shared.now
  actions : shared.actions.Same own.actions
  /-- The answers of actions do not depend on how often others have called them. -/
  steady : shared.actions.Steady
  desk : Desk.Mirror execution pairs foreign shared.desk own.desk

namespace Mirror

variable {execution : String} {pairs : List (Seat × Seat)} {foreign : List Seat}
  {shared own : Environment}

/-- The order of the pairs does not matter. -/
theorem perm (mirror : Mirror execution pairs foreign shared own) {pairs' : List (Seat × Seat)}
    (same : pairs.Perm pairs') : Mirror execution pairs' foreign shared own :=
  { mirror with desk := mirror.desk.perm same (.refl foreign) }

/-- Apart from the desks nothing matters that happens at one moment. -/
theorem sameMoment (mirror : Mirror execution pairs foreign shared own)
    {pairs' : List (Seat × Seat)} {foreign' : List Seat} {shared' own' : Environment}
    (first : Process.SameMoment shared shared') (second : Process.SameMoment own own')
    (desk : Desk.Mirror execution pairs' foreign' shared'.desk own'.desk) :
    Mirror execution pairs' foreign' shared' own' where
  now := by rw [second.1, first.1, mirror.now]
  actions := first.2.symm.trans (mirror.actions.trans second.2)
  steady := mirror.steady.same first.2
  desk := desk

/-- Calls, alarms, records and events do not matter. -/
theorem quiet (mirror : Mirror execution pairs foreign shared own) {shared' own' : Environment}
    (first : shared.Quiet shared') (second : own.Quiet own') :
    Mirror execution pairs foreign shared' own' := by
  refine mirror.sameMoment ⟨first.now, first.actions⟩ ⟨second.now, second.actions⟩ ?_
  rw [first.desk, second.desk]
  exact mirror.desk

/-- Warnings are no concern of the mirror. -/
theorem warn (mirror : Mirror execution pairs foreign shared own) (warning warning' : Warning) :
    Mirror execution pairs foreign (shared.warn warning) (own.warn warning') :=
  ⟨mirror.now, mirror.actions, mirror.steady, mirror.desk⟩

/-- A call begins alike. -/
theorem beginCall (mirror : Mirror execution pairs foreign shared own)
    (registration : Registration) (input : Value) (limit : Option Nat) :
    (shared.beginCall registration input limit).1.Alike
      (own.beginCall registration input limit).1 where
  answer := by
    rw [beginCall_answer, beginCall_answer, mirror.now,
      (mirror.steady.answers mirror.actions registration input).1]
  cutAt := by rw [beginCall_cutAt, beginCall_cutAt, mirror.now]

/-- A call has the same end, if it has come. -/
theorem callEnd? (mirror : Mirror execution pairs foreign shared own) {call call' : Call}
    (same : call.Alike call') : own.callEnd? call' = shared.callEnd? call := by
  rw [callEnd?_eq, callEnd?_eq, same.answer, same.cutAt, mirror.now]

/-- A request is made in both environments. -/
theorem makeRequest (mirror : Mirror execution pairs foreign shared own) {request : Request}
    (ours : request.execution = execution) :
    Mirror execution
      (((shared.makeRequest request).1, (own.makeRequest request).1) :: pairs) foreign
      (shared.makeRequest request).2 (own.makeRequest request).2 := by
  refine mirror.sameMoment (shared.sameMoment_makeRequest request)
    (own.sameMoment_makeRequest request) ?_
  rw [desk_makeRequest, desk_makeRequest]
  exact mirror.desk.sitDown request ours

/-- A seat is left in both environments. -/
theorem leave {pair : Seat × Seat}
    (mirror : Mirror execution (pair :: pairs) foreign shared own) :
    Mirror execution pairs foreign (shared.leave pair.1) (own.leave pair.2) :=
  ⟨mirror.now, mirror.actions, mirror.steady, mirror.desk.standUp⟩

end Mirror

/-- Two looks for a decision have come to the same. -/
inductive Mail.Alike : Mail → Mail → Prop where
  | waiting {deadline deadline' : Option Alarm}
      (same : deadline'.map Alarm.time = deadline.map Alarm.time) :
      Alike (.waiting deadline) (.waiting deadline')
  | received (decision : Option Decision) : Alike (.received decision) (.received decision)

/-- A look for a decision comes to the same in both environments. -/
theorem Mirror.lookForMail {execution : String} {pairs : List (Seat × Seat)} {foreign : List Seat}
    {shared own : Environment} (mirror : Mirror execution pairs foreign shared own)
    {pair : Seat × Seat} (known : pair ∈ pairs) {deadline deadline' : Option Alarm}
    (same : deadline'.map Alarm.time = deadline.map Alarm.time) :
    (shared.lookForMail pair.1 deadline).1.Alike (own.lookForMail pair.2 deadline').1 ∧
      Mirror execution pairs foreign (shared.lookForMail pair.1 deadline).2
        (own.lookForMail pair.2 deadline').2 := by
  obtain ⟨sameKey, ours⟩ := mirror.desk.keys pair known
  have rung : deadline'.any own.hasRung = deadline.any shared.hasRung := by
    rw [any_hasRung, any_hasRung, same, mirror.now]
  unfold Environment.lookForMail
  rw [mirror.desk.letters pair known, rung]
  cases shared.desk.letter pair.1.ticket with
  | answered decision => exact ⟨.received _, mirror⟩
  | abandoned | closed => exact ⟨.received _, mirror⟩
  | awaited =>
    dsimp only
    split
    case isFalse => exact ⟨.waiting same, mirror⟩
    case isTrue =>
      -- The limit is over: the request is discarded at both desks if it lies there.
      have found := mirror.desk.find?_isSome ours
      cases lies : shared.desk.find? pair.1.key with
      | none =>
        rw [lies, Option.isSome_none, Option.isSome_eq_false_iff,
          Option.isNone_iff_eq_none] at found
        rw [expire_of_missing lies, expire_of_missing (sameKey ▸ found)]
        exact ⟨.waiting rfl, mirror⟩
      | some entry =>
        rw [lies, Option.isSome_some, Option.isSome_iff_exists] at found
        obtain ⟨other, found⟩ := found
        rw [expire_of_find? lies, expire_of_find? (sameKey.symm ▸ found), sameKey]
        exact ⟨.received _, mirror.now, mirror.actions, mirror.steady,
          mirror.desk.discard pair.1.key⟩

end Environment

/-! ## Turns -/

/-- What a turn has come to is alike in both environments, and they agree afterwards. -/
def Activity.Parallel (execution : String) (scope others : List (Seat × Seat))
    (foreign : List Seat) (result result' : Environment × Activity) : Prop :=
  ∃ held, result.2.Alike execution scope held result'.2 ∧
    Environment.Mirror execution (held ++ others) foreign result.1 result'.1

section Turns

variable {execution : String} {scope others : List (Seat × Seat)} {foreign : List Seat}
  {shared own : Environment}

/-- A pair of seats is held until the body has ended in both environments. -/
theorem Activity.Parallel.hold {pair : Seat × Seat} {result result' : Environment × Activity}
    (inside : Parallel execution (pair :: scope) (pair :: others) foreign result result') :
    Parallel execution scope others foreign (result.2.hold pair.1 result.1)
      (result'.2.hold pair.2 result'.1) := by
  obtain ⟨environment, body⟩ := result
  obtain ⟨environment', body'⟩ := result'
  obtain ⟨held, alike, mirror⟩ := inside
  have seated : Parallel execution scope others foreign (environment, .seated pair.1 body)
      (environment', .seated pair.2 body') :=
    ⟨pair :: held, .seated pair alike, mirror.perm List.perm_middle⟩
  cases alike with
  | ended outcome => exact ⟨[], .ended outcome, mirror.leave⟩
  | calling | seated | awaiting | together => exact seated

/-- When all members have ended, what follows them begins in both environments. -/
theorem Activity.Parallel.join {members : List Twin} {next next' : List Outcome → Process}
    (each : Twin.Alike execution members)
    (later : ∀ outcomes, (next outcomes).Alike execution scope (next' outcomes))
    (starts : ∀ outcomes, Environment.Mirror execution others foreign shared own →
      Parallel execution scope others foreign ((next outcomes).start shared)
        ((next' outcomes).start own))
    (mirror : Environment.Mirror execution (members.flatMap Twin.held ++ others) foreign shared
      own) :
    Parallel execution scope others foreign
      (match Activity.outcomes? (members.map Twin.first) with
        | some outcomes => (next outcomes).start shared
        | none => (shared, .together (members.map Twin.first) next))
      (match Activity.outcomes? (members.map Twin.second) with
        | some outcomes => (next' outcomes).start own
        | none => (own, .together (members.map Twin.second) next')) := by
  rw [Twin.outcomes?_eq each]
  cases ended : Activity.outcomes? (members.map Twin.first) with
  | none => exact ⟨_, .together each later, mirror⟩
  | some outcomes =>
    rw [Twin.held_of_ended each ended] at mirror
    exact starts outcomes mirror

/-- A decision is reacted to in both environments, or both go on waiting. -/
theorem Activity.Parallel.listen {pair : Seat × Seat} {next next' : Option Decision → Process}
    (known : pair ∈ scope)
    (later : ∀ decision, (next decision).Alike execution scope (next' decision))
    (starts : ∀ decision {shared own : Environment},
      Environment.Mirror execution others foreign shared own →
      Parallel execution scope others foreign ((next decision).start shared)
        ((next' decision).start own))
    {deadline deadline' : Option Alarm}
    (same : deadline'.map Alarm.time = deadline.map Alarm.time) (within : scope ⊆ others)
    (mirror : Environment.Mirror execution others foreign shared own) :
    Parallel execution scope others foreign
      (match shared.lookForMail pair.1 deadline with
        | (.received decision, environment) => (next decision).start environment
        | (.waiting deadline, environment) => (environment, .awaiting pair.1 deadline next))
      (match own.lookForMail pair.2 deadline' with
        | (.received decision, environment) => (next' decision).start environment
        | (.waiting deadline, environment) => (environment, .awaiting pair.2 deadline next')) := by
  obtain ⟨alike, after⟩ := mirror.lookForMail (within known) same
  generalize shared.lookForMail pair.1 deadline = mail at alike after
  generalize own.lookForMail pair.2 deadline' = mail' at alike after
  obtain ⟨mail, environment⟩ := mail
  obtain ⟨mail', environment'⟩ := mail'
  cases alike with
  | waiting same => exact ⟨[], .awaiting known same later, after⟩
  | received decision => exact starts decision after

/-- Members are started alike in both environments. -/
theorem startAll_alike {members : List Process}
    (each : ∀ member ∈ members, ∀ {others : List (Seat × Seat)} {shared own : Environment},
      Environment.Mirror execution others foreign shared own →
      Activity.Parallel execution [] others foreign (member.start shared) (member.start own))
    (mirror : Environment.Mirror execution others foreign shared own) :
    ∃ twins, (startAll shared members).2 = twins.map Twin.first ∧
      (startAll own members).2 = twins.map Twin.second ∧ Twin.Alike execution twins ∧
      Environment.Mirror execution (twins.flatMap Twin.held ++ others) foreign
        (startAll shared members).1 (startAll own members).1 := by
  induction members generalizing shared own others with
  | nil => exact ⟨[], rfl, rfl, by simp [Twin.Alike], mirror⟩
  | cons member rest ih =>
    obtain ⟨held, alike, after⟩ := each member List.mem_cons_self mirror
    obtain ⟨twins, firsts, seconds, allAlike, last⟩ :=
      ih (fun other later => each other (List.mem_cons_of_mem _ later)) after
    refine ⟨⟨_, _, held⟩ :: twins, ?_, ?_, List.forall_mem_cons.mpr ⟨alike, allAlike⟩, ?_⟩
    · rw [startAll, List.map_cons, ← firsts]
    · rw [startAll, List.map_cons, ← seconds]
    · refine last.perm ?_
      rw [← List.append_assoc]
      exact List.perm_append_comm.append_right others

/-- A process does the same in both environments when it is started. -/
theorem Process.Alike.start {process process' : Process}
    (alike : process.Alike execution scope process') (within : scope ⊆ others)
    (mirror : Environment.Mirror execution others foreign shared own) :
    Activity.Parallel execution scope others foreign (process.start shared)
      (process'.start own) := by
  induction alike generalizing others shared own with
  | settle outcome => exact ⟨[], .ended outcome, mirror⟩
  | warn warning _ ih =>
    rw [Process.start, Process.start]
    exact ih within (mirror.warn warning warning)
  | lookUp action _ ih =>
    rw [Process.start, Process.start, mirror.actions.find?]
    exact ih _ within mirror
  | call registration input limit later ih =>
    have same := mirror.beginCall registration input limit
    have begun := mirror.quiet (shared.quiet_beginCall registration input limit)
      (own.quiet_beginCall registration input limit)
    rw [Process.start, Process.start]
    dsimp only
    rw [begun.callEnd? same]
    split
    next callEnd _ =>
      exact ih callEnd within
        (begun.quiet (Environment.quiet_recordEnd ..) (Environment.quiet_recordEnd ..))
    next => exact ⟨[], .calling same later, begun⟩
  | @review _ request _ _ ours _ ih =>
    have seated := mirror.makeRequest ours
    have announced := seated.quiet (Environment.quiet_publish _ (.reviewRequested request))
      (Environment.quiet_publish _ (.reviewRequested request))
    rw [Process.start, Process.start]
    exact (ih (_, _) (List.cons_subset_cons _ within) announced).hold
  | await known limit later ih =>
    have begun := mirror.quiet (shared.quiet_setLimit limit) (own.quiet_setLimit limit)
    have deadlines : (own.setLimit limit).1.map Alarm.time =
        (shared.setLimit limit).1.map Alarm.time := by
      rw [Environment.setLimit_time, Environment.setLimit_time, mirror.now]
    rw [Process.start, Process.start]
    exact Activity.Parallel.listen known later (fun decision _ _ => ih decision within) deadlines
      within begun
  | together each later ihEach ihLater =>
    obtain ⟨twins, firsts, seconds, allAlike, after⟩ :=
      startAll_alike (fun member inside _ _ _ => ihEach member inside (List.nil_subset _)) mirror
    rw [Process.start, Process.start]
    simp only [firsts, seconds]
    exact Activity.Parallel.join allAlike later (fun outcomes => ihLater outcomes within) after

/-- Members go on alike in both environments. -/
theorem resumeAll_alike {members : List Twin}
    (each : ∀ member ∈ members, ∀ {others : List (Seat × Seat)} {shared own : Environment},
      Environment.Mirror execution (member.held ++ others) foreign shared own →
      Activity.Parallel execution [] others foreign (member.first.resume shared)
        (member.second.resume own))
    (mirror : Environment.Mirror execution (members.flatMap Twin.held ++ others) foreign shared
      own) :
    ∃ twins, (Activity.resumeAll shared (members.map Twin.first)).2 = twins.map Twin.first ∧
      (Activity.resumeAll own (members.map Twin.second)).2 = twins.map Twin.second ∧
      Twin.Alike execution twins ∧
      Environment.Mirror execution (twins.flatMap Twin.held ++ others) foreign
        (Activity.resumeAll shared (members.map Twin.first)).1
        (Activity.resumeAll own (members.map Twin.second)).1 := by
  induction members generalizing shared own others with
  | nil => exact ⟨[], rfl, rfl, by simp [Twin.Alike], mirror⟩
  | cons member rest ih =>
    rw [List.flatMap_cons, List.append_assoc] at mirror
    obtain ⟨held, alike, after⟩ := each member List.mem_cons_self mirror
    -- The seats of the first member now count among those of the others.
    have before : Environment.Mirror execution (rest.flatMap Twin.held ++ (held ++ others)) foreign
        (member.first.resume shared).1 (member.second.resume own).1 := by
      refine after.perm ?_
      rw [← List.append_assoc, ← List.append_assoc]
      exact List.perm_append_comm.append_right others
    obtain ⟨twins, firsts, seconds, allAlike, last⟩ :=
      ih (fun other later => each other (List.mem_cons_of_mem _ later)) before
    refine ⟨⟨_, _, held⟩ :: twins, ?_, ?_, List.forall_mem_cons.mpr ⟨alike, allAlike⟩, ?_⟩
    · rw [List.map_cons, Activity.resumeAll, List.map_cons, ← firsts]
    · rw [List.map_cons, Activity.resumeAll, List.map_cons, ← seconds]
    · refine last.perm ?_
      rw [← List.append_assoc]
      exact List.perm_append_comm.append_right others

/-- An activity goes on alike in both environments. -/
theorem Activity.Alike.resume {held : List (Seat × Seat)} {activity activity' : Activity}
    (alike : activity.Alike execution scope held activity') (within : scope ⊆ others)
    (mirror : Environment.Mirror execution (held ++ others) foreign shared own) :
    Parallel execution scope others foreign (activity.resume shared) (activity'.resume own) := by
  induction alike generalizing others shared own with
  | ended outcome => exact ⟨[], .ended outcome, mirror⟩
  | calling same later =>
    rw [Activity.resume, Activity.resume, mirror.callEnd? same]
    split
    next callEnd _ =>
      exact (later callEnd).start within
        (mirror.quiet (shared.quiet_recordEnd ..) (own.quiet_recordEnd ..))
    next => exact ⟨[], .calling same later, mirror⟩
  | seated pair _ ih =>
    have inside := ih (List.cons_subset_cons _ within) (mirror.perm List.perm_middle.symm)
    rw [Activity.resume, Activity.resume]
    exact inside.hold
  | awaiting known same later =>
    rw [Activity.resume, Activity.resume]
    exact Parallel.listen known later (fun decision _ _ => (later decision).start within) same
      within mirror
  | together _ later ih =>
    obtain ⟨twins, firsts, seconds, allAlike, after⟩ :=
      resumeAll_alike (fun member inside _ _ _ => ih member inside (List.nil_subset _)) mirror
    rw [Activity.resume, Activity.resume]
    simp only [firsts, seconds]
    exact Parallel.join allAlike later (fun outcomes => (later outcomes).start within) after

end Turns

end Workflow
