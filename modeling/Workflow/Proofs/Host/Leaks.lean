import Workflow.Proofs.Execution.Defects
import Workflow.Proofs.Execution.Handouts
import Workflow.Proofs.Host.Desks
import Workflow.Proofs.Review.Holders

/-!
# No request is leaked

Requests come to a desk only with steps that ask humans, and leave it with them at the latest: when
the step ends, when its limit is over, when its run is dropped. So every request that lies on a desk
is that of a step in progress, the last one to ask under its key; this holds of the moves in a hall
(`Hall.Run.held`) as well as of whole runs on a host, whatever happens there. When no run is in
progress, the desk is empty.

A run that is dropped leaves all its seats at once. If no other run has its identifier, the requests
that go with it are those of its execution, and nothing else changes for anybody.
-/
namespace Workflow

/-! ## Whom a run asks -/

/-- A step of a definition, at any depth, asks humans and has a name. -/
def Definition.Reviews (definition : Definition) (name : String) : Prop :=
  ∃ step ∈ definition.allSteps, step.kind = .humanInLoop ∧ step.name = name

/-- On an engine without custom executors a run asks in its own execution, and under the names of
its human steps. -/
def Host.circle (host : Host) : Circle := fun engine definition execution key =>
  (host.engine engine).custom = [] →
    key.execution = execution ∧ definition.Reviews key.step

/-- Without custom executors only human steps ask. -/
theorem Step.process_asks {setup : Setup} (custom : setup.custom = []) {definition : Definition}
    {phase : Phase} {step : Step} (listed : step ∈ definition.listed phase) (context : Context) :
    (step.process setup context).Obeys (.asking fun key =>
      key.execution = context.execution ∧ definition.Reviews key.step) := by
  refine (step.process_hands custom context).obeys ?_ (fun _ => trivial) fun _ => trivial
  rintro calls request ⟨inner, inside, -, handed⟩
  cases handed with
  | request kind =>
    rw [descendantsOf, descendantsOf, List.append_nil] at inside
    exact ⟨rfl, inner, Definition.mem_allSteps_of_listed listed inside, kind, rfl⟩

/-- The definitions of a host let their runs ask within the circle of the host. -/
theorem Host.conducts_circle (host : Host) : host.Conducts host.circle := by
  intro engine definition execution phase step listed context own
  by_cases custom : (host.engine engine).custom = []
  · have asks : (step.process (host.engine engine).setup context).Obeys (.asking fun key =>
        key.execution = context.execution ∧ definition.Reviews key.step) :=
      Step.process_asks custom listed context
    have same : host.circle engine definition execution = fun key =>
        key.execution = context.execution ∧ definition.Reviews key.step := by
      funext key
      simp [circle, custom, own]
    rwa [Circle.rules, same]
  · have free : host.circle engine definition execution = fun _ => True := by
      funext key
      simp [circle, custom]
    rw [Circle.rules, free]
    exact Process.obeys_free _

/-! ## Requests of runs in progress -/

/-- Of the requests on a desk, those with boxes that had been issued at an earlier moment lay there
at that moment. -/
structure Desk.Since (before desk : Desk) : Prop where
  issued : before.letters.length ≤ desk.letters.length
  older : ∀ entry ∈ desk.entries, entry.ticket < before.letters.length → entry ∈ before.entries

namespace Desk.Since

variable {before desk desk' : Desk}

/-- Taking requests off the desk brings none back. -/
theorem fewer (since : before.Since desk) (length : desk'.letters.length = desk.letters.length)
    (fewer : ∀ entry ∈ desk'.entries, entry ∈ desk.entries) : before.Since desk' where
  issued := length ▸ since.issued
  older entry lies := since.older entry (fewer entry lies)

/-- A request that is made later has a box that was issued later. -/
theorem sitDown (since : before.Since desk) (request : Request) :
    before.Since (desk.sitDown request).2 where
  issued := by
    rw [length_sitDown]
    exact Nat.le_succ_of_le since.issued
  older entry lies older := by
    rcases (mem_sitDown desk request entry).mp lies with ⟨earlier, -⟩ | rfl
    · exact since.older entry earlier older
    · exact absurd older (Nat.not_lt.mpr since.issued)

/-- Of the requests with earlier boxes, those that stay lay on the desk before, whatever is done at
it. -/
theorem keeps (before : Desk) : Desk.Keeps fun _ desk => before.Since desk where
  order since _ := since
  sitDown request since := since.sitDown request
  discard key since := since.fewer (length_discard _ key)
    fun entry lies => ((mem_discard _ key entry).mp lies).1
  standUp since := since.fewer (length_standUp _ _)
    fun entry lies => ((mem_standUp _ _ entry).mp lies).1
  submit key decision since := by
    refine since.fewer (length_submit _ key decision) fun entry lies => ?_
    rw [entries_submit] at lies
    exact ((mem_without _ key entry).mp lies).1

end Desk.Since

/-- A seat at the desk of an engine is held by a run on that engine. -/
theorem Task.Obeys.of_seatsAt {asks : Circle} {task : Task} (obeys : task.Obeys asks) {index : Nat}
    {seat : Seat} (held : seat ∈ task.seatsAt index) : ∃ run, task = .running index run ∧
      seat ∈ run.activity.seats ∧ asks index run.definition run.execution seat.key := by
  cases obeys with
  | @running engine run execution obeys =>
    rw [Task.seatsAt] at held
    split at held
    case isFalse => cases held
    case isTrue same =>
      subst same
      cases obeys with
      | waiting _ done inside _ =>
        obtain rfl := done.own
        exact ⟨run, rfl, held, inside.asks_seats seat held⟩
  | ended | taken => cases held

namespace Host

variable {host : Host}

/-- Nothing has happened on a host: no requests and no tasks. -/
structure Fresh (host : Host) : Prop where
  desks : ∀ engine ∈ host.engines, engine.desk = .empty
  foreground : host.foreground = none
  runs : host.runs = []

/-- A request on the desk of an engine belongs to a run in progress, after incidents. -/
structure Belongs (host : Host) (incidents : List Incident) (index : Nat) (entry : OpenRequest)
    (run : Run) (seat : Seat) : Prop where
  underway : .running index run ∈ (host.afterAll incidents).tasks
  /-- A step of the run holds the seat, and it looks into the box of the request. -/
  held : seat ∈ run.activity.seats
  box : seat.ticket = entry.ticket
  key : seat.key = entry.key
  /-- Where there are no custom executors, it is a human step of the run. -/
  human : (host.engine index).custom = [] →
    seat.key.execution = run.execution ∧ run.definition.Reviews seat.key.step
  /-- Nobody who has held a seat under the key got it later. -/
  latest : ∀ before after, incidents = before ++ after →
    ∀ other ∈ (host.afterAll before).seatsAt index, other.key = entry.key →
      other.ticket ≤ entry.ticket

/-- There are no tasks on a fresh host. -/
theorem Fresh.tasks (fresh : host.Fresh) : host.tasks = [] := by
  rw [Host.tasks, fresh.foreground, fresh.runs]
  rfl

/-- All desks of a fresh host are empty. -/
theorem Fresh.desk (fresh : host.Fresh) (index : Nat) : (host.engine index).desk = .empty := by
  unfold Host.engine
  cases found : host.engines[index]? with
  | none => rfl
  | some engine => exact fresh.desks engine (List.mem_of_getElem? found)

/-- On a fresh host the desks are orderly, and nobody asks whom he may not ask. -/
theorem Fresh.keeping (fresh : host.Fresh) {asks : Circle} (conducts : host.Conducts asks) :
    host.Keeping asks fun _ seats desk => desk.Orderly seats [] where
  conducts := conducts
  tasks := by simp [fresh.tasks]
  desks index inside := by
    rw [fresh.desk index, seatsAt, fresh.tasks]
    exact Desk.Orderly.empty

/-- An engine that does not exist has an empty desk. -/
theorem desk_of_le {index : Nat} (outside : host.engines.length ≤ index) :
    (host.engine index).desk = .empty := by
  simp [Host.engine, List.getElem?_eq_none outside, Engine.new]

/-- Where a request lies, there is an engine. -/
theorem inside_of_lies {index : Nat} {entry : OpenRequest}
    (lies : entry ∈ (host.engine index).desk.entries) : index < host.engines.length := by
  by_contra outside
  rw [desk_of_le (Nat.not_lt.mp outside)] at lies
  cases lies

/-- A request lay on the desk at every moment since it was made. -/
theorem Keeping.lies_before {asks : Circle} {facts : Nat → List Seat → Desk → Prop}
    (keeping : host.Keeping asks facts) {incidents : List Incident} {index : Nat}
    {entry : OpenRequest} (lies : entry ∈ ((host.afterAll incidents).engine index).desk.entries)
    (older : entry.ticket < (host.engine index).desk.letters.length) :
    entry ∈ (host.engine index).desk.entries := by
  have start : host.Keeping asks fun index _ desk => (host.engine index).desk.Since desk :=
    ⟨keeping.conducts, keeping.tasks, fun index _ => ⟨Nat.le_refl _, fun _ lies _ => lies⟩⟩
  have since := start.afterAll (fun index => Desk.Since.keeps (host.engine index).desk) incidents
  exact (since.desks index (inside_of_lies lies)).older entry lies older

/-- Whatever has happened on a host, every request on a desk belongs to a run in progress. -/
theorem Fresh.belongs (fresh : host.Fresh) {incidents : List Incident} {index : Nat}
    {entry : OpenRequest} (lies : entry ∈ ((host.afterAll incidents).engine index).desk.entries) :
    ∃ run seat, host.Belongs incidents index entry run seat := by
  have keeping : ∀ incidents, (host.afterAll incidents).Keeping host.circle
      fun _ seats desk => desk.Orderly seats [] :=
    (fresh.keeping host.conducts_circle).afterAll fun _ => Desk.keeps_orderly
  have orderly := (keeping incidents).desks index (inside_of_lies lies)
  obtain ⟨seat, held, box, key⟩ := orderly.seated entry lies
  obtain ⟨task, known, holds⟩ := List.mem_flatMap.mp held
  obtain ⟨run, rfl, inside, human⟩ := ((keeping incidents).tasks task known).of_seatsAt holds
  refine ⟨run, seat, known, inside, box, key, human, ?_⟩
  rintro before after rfl other otherHeld sameKey
  rw [afterAll_append] at lies
  have orderlyBefore := (keeping before).desks index
    ((samePlans_afterAll _ after).length ▸ inside_of_lies lies)
  -- A request whose box had been issued lay on the desk then; any other box is newer than all.
  rcases Nat.lt_or_ge entry.ticket
    ((host.afterAll before).engine index).desk.letters.length with older | newer
  · have lay := (keeping before).lies_before lies older
    exact orderlyBefore.latest entry lay other otherHeld sameKey
  · exact Nat.le_trans (Nat.le_of_lt (orderlyBefore.issued other otherHeld)) newer

/-- When no run is in progress on an engine, nothing lies on its desk. -/
theorem Fresh.entries_nil (fresh : host.Fresh) {incidents : List Incident} {index : Nat}
    (idle : ∀ run, .running index run ∉ (host.afterAll incidents).tasks) :
    ((host.afterAll incidents).engine index).desk.entries = [] := by
  rw [List.eq_nil_iff_forall_not_mem]
  intro entry lies
  obtain ⟨run, seat, belongs⟩ := fresh.belongs lies
  exact idle run belongs.underway

end Host

/-! ## Runs that are dropped -/

/-- Seats have been left, with the requests under their keys; nothing else has happened but that
calls were cancelled. -/
structure Environment.Left (environment : Environment) (seats : List Seat)
    (later : Environment) : Prop where
  entries : later.desk.entries =
    environment.desk.entries.filter (·.key ∉ seats.map Seat.key)
  rest : ∃ desk calls, later = { environment with desk, calls }

namespace Environment.Left

variable {environment middle later : Environment} {first second : List Seat}

/-- As long as nothing happens no seats are left. -/
theorem none (environment : Environment) : environment.Left [] environment :=
  ⟨by simp, _, _, rfl⟩

/-- Seats are left one after another. -/
theorem trans (earlier : environment.Left first middle) (next : middle.Left second later) :
    environment.Left (first ++ second) later := by
  obtain ⟨desk, calls, rfl⟩ := earlier.rest
  obtain ⟨desk', calls', rfl⟩ := next.rest
  refine ⟨?_, desk', calls', rfl⟩
  rw [next.entries, earlier.entries, List.filter_filter]
  refine List.filter_congr fun entry _ => ?_
  simp only [List.map_append, List.mem_append, not_or, Bool.decide_and, Bool.and_comm]

/-- To leave a seat leaves this seat. -/
theorem leave (environment : Environment) (seat : Seat) :
    environment.Left [seat] (environment.leave seat) := by
  refine ⟨?_, _, _, rfl⟩
  rw [Environment.leave, Desk.entries_standUp, Desk.without]
  refine List.filter_congr fun entry _ => ?_
  simp [bne, beq_eq_decide]

/-- The order in which seats are left does not matter. -/
theorem perm (left : environment.Left first later) (same : first.Perm second) :
    environment.Left second later := by
  refine ⟨?_, left.rest⟩
  rw [left.entries]
  refine List.filter_congr fun entry _ => ?_
  simp only [(same.map Seat.key).mem_iff]

/-- A call that is cancelled leaves no seat. -/
theorem cancel (environment : Environment) (recordedAs : Option String) :
    environment.Left [] (environment.record recordedAs .cancelled) := by
  cases recordedAs with
  | none => exact .none environment
  | some action => exact ⟨by simp [record], _, _, rfl⟩

end Environment.Left

mutual

/-- An activity that is dropped leaves the seats that it holds. -/
theorem Activity.left_drop (environment : Environment) :
    (activity : Activity) → environment.Left activity.seats (activity.drop environment)
  | .ended _ => .none environment
  | .calling call _ => .cancel environment call.recordedAs
  | .seated seat body =>
    ((body.left_drop environment).trans (.leave _ seat)).perm (List.perm_append_singleton _ _)
  | .awaiting _ _ _ => .none environment
  | .together members _ => allLeft_drop environment members

/-- To drop members is to leave all their seats. -/
theorem allLeft_drop (environment : Environment) : (members : List Activity) →
    environment.Left (Activity.allSeats members) (Activity.dropAll environment members)
  | [] => .none environment
  | member :: rest =>
    (member.left_drop environment).trans (allLeft_drop (member.drop environment) rest)

end

/-- The boxes of other executions are as they were. -/
def Desk.Untouched (before : Desk) (execution : String) (seats : List Seat) (desk : Desk) : Prop :=
  desk.Orderly seats [] ∧ ∀ seat ∈ seats, seat.key.execution ≠ execution →
    desk.letter seat.ticket = before.letter seat.ticket

/-- Whatever an execution does, it does not touch the boxes of others. -/
theorem Desk.keeps_untouched (before : Desk) (execution : String) :
    (Rules.asking fun key => key.execution = execution).Keeps fun seats environment =>
      before.Untouched execution seats environment.desk where
  order := by
    rintro seats seats' environment ⟨orderly, same⟩ perm
    exact ⟨orderly.perm perm, fun seat held => same seat (perm.mem_iff.mpr held)⟩
  quiet known quiet := quiet.desk ▸ known
  warn _ known _ := known
  found _ impossible := impossible.elim
  sitDown := by
    rintro seats environment request ⟨orderly, same⟩ own
    refine ⟨orderly.sitDown request, fun seat held foreign => ?_⟩
    rcases List.mem_cons.mp held with rfl | held
    · exact absurd own foreign
    · rw [← same seat held foreign]
      exact letter_sitDown_of_lt _ request (orderly.issued seat held)
  discard := by
    rintro seats environment key ⟨orderly, same⟩ own
    refine ⟨orderly.discard key, fun seat held foreign => ?_⟩
    rw [← same seat held foreign]
    exact orderly.letter_discard held fun under => foreign (under ▸ own)
  leave := by
    rintro seats environment seat ⟨orderly, same⟩ own
    refine ⟨orderly.standUp, fun other held foreign => ?_⟩
    have among := List.mem_cons_of_mem seat held
    rw [← same other among foreign]
    exact orderly.letter_standUp List.mem_cons_self among fun under => foreign (under ▸ own)

namespace Host

variable {host : Host}

/-- What becomes of a host when a run is dropped that is alone with its execution on its engine. -/
structure Drops (host later : Host) (engine : Nat) (place : Task.Place) (execution : String) :
    Prop where
  /-- The requests of the execution are gone, and those of others lie where they lay. -/
  entries : (later.engine engine).desk.entries =
    (host.engine engine).desk.requestsBeside execution
  /-- The boxes of the other runs are as they were. -/
  boxes : ∀ other ≠ place, ∀ task, host.task? other = some task → ∀ seat ∈ task.seatsAt engine,
    (later.engine engine).desk.letter seat.ticket = (host.engine engine).desk.letter seat.ticket
  elsewhere : ∀ other ≠ engine, later.engine other = host.engine other
  /-- Both registries are as they were. -/
  library : later.library = host.library
  tasks : ∀ other ≠ place, later.task? other = host.task? other

/-- Besides the run in a place, no run on an engine has an execution. -/
def Alone (host : Host) (engine : Nat) (place : Task.Place) (execution : String) : Prop :=
  ∀ other ≠ place, ∀ rival, host.task? other = some (.running engine rival) →
    rival.execution ≠ execution

/-- Custom executors ask humans only in the execution of the run. -/
def AsksWithin (host : Host) : Prop :=
  ∀ index, ∀ executor ∈ (host.engine index).custom, executor.AsksWithin

/-- Where custom executors ask within executions, so do all runs. -/
theorem AsksWithin.conducts (within : host.AsksWithin) : host.Conducts Circle.within :=
  fun engine definition execution => definition.obeys_within (within engine) execution

/-- Every task is in a place. -/
theorem exists_place {task : Task} (known : task ∈ host.tasks) :
    ∃ place, host.task? place = some task := by
  rcases List.mem_append.mp known with foreground | background
  · exact ⟨.foreground, Option.mem_toList.mp foreground⟩
  · obtain ⟨number, found⟩ := List.mem_iff_getElem?.mp background
    exact ⟨.background number, found⟩

/-- The run in a place holds seats in its own execution, and any other task holds none in it. -/
theorem Keeping.seats_own {facts : Nat → List Seat → Desk → Prop}
    (keeping : host.Keeping Circle.within facts) {engine : Nat} {place : Task.Place} {run : Run}
    (found : host.task? place = some (.running engine run))
    (alone : host.Alone engine place run.execution) {other : Task.Place} {task : Task}
    (present : host.task? other = some task) {seat : Seat} (held : seat ∈ task.seatsAt engine) :
    seat.key.execution = run.execution ↔ other = place := by
  obtain ⟨rival, rfl, -, own⟩ :=
    (keeping.tasks task (mem_tasks_of_task? present)).of_seatsAt held
  constructor
  · intro same
    by_contra differ
    exact alone other differ rival present (own.symm.trans same)
  · rintro rfl
    obtain ⟨-, rfl⟩ := Task.running.inj (Option.some.inj (present.symm.trans found))
    exact own

/-- A run asks in its own execution. -/
theorem Keeping.asks_own {facts : Nat → List Seat → Desk → Prop}
    (keeping : host.Keeping Circle.within facts) {engine : Nat} {place : Task.Place} {run : Run}
    (found : host.task? place = some (.running engine run)) :
    run.activity.Obeys (.asking fun key => key.execution = run.execution) := by
  cases keeping.tasks _ (mem_tasks_of_task? found) with
  | running obeys =>
    cases obeys with
    | waiting _ done inside _ =>
      obtain rfl := done.own
      exact inside

/-! A run is in a place, and it is dropped while it is alone with its execution on its engine. -/

section

variable {engine : Nat} {place : Task.Place} {run : Run}
  (found : host.task? place = some (.running engine run))

include found

/-- To give up a run is to drop what is left of it and to clear its place. -/
theorem after_leaves : host.after (.leaves place) =
    (host.absorb engine (run.drop (host.environment (host.engine engine)))).clear place := by
  rw [Host.after, dismiss_of_task? found]
  rfl

/-- An engine is afterwards what dropping the run has made of it. -/
theorem engine_leaves (index : Nat) :
    (host.after (.leaves place)).engine index =
      (host.absorb engine (run.drop (host.environment (host.engine engine)))).engine index := by
  rw [after_leaves found]
  cases place <;> rfl

variable (keeping : host.Keeping Circle.within fun _ seats desk => desk.Orderly seats [])

include keeping

/-- A request has the execution of the run exactly if it lies under the key of one of its seats. -/
theorem Keeping.under_iff (alone : host.Alone engine place run.execution)
    (inside : engine < host.engines.length) {entry : OpenRequest}
    (lies : entry ∈ (host.engine engine).desk.entries) :
    entry.key ∈ run.activity.seats.map Seat.key ↔ entry.key.execution = run.execution := by
  constructor
  · intro under
    obtain ⟨seat, held, key⟩ := List.mem_map.mp under
    rw [← Task.seatsAt_running engine run] at held
    have own := (keeping.seats_own found alone found held).mpr rfl
    rwa [key] at own
  · intro same
    obtain ⟨seat, held, -, key⟩ := (keeping.desks engine inside).seated entry lies
    obtain ⟨task, known, holds⟩ := List.mem_flatMap.mp held
    obtain ⟨other, present⟩ := exists_place known
    obtain rfl := (keeping.seats_own found alone present holds).mp (key ▸ same)
    obtain rfl := Option.some.inj (present.symm.trans found)
    rw [Task.seatsAt_running] at holds
    exact List.mem_map.mpr ⟨seat, holds, key⟩

/-- Of the requests on the desk those of other executions stay. -/
theorem Keeping.entries_leaves (alone : host.Alone engine place run.execution) :
    ((host.after (.leaves place)).engine engine).desk.entries =
      (host.engine engine).desk.requestsBeside run.execution := by
  rw [engine_leaves found]
  rcases Nat.lt_or_ge engine host.engines.length with inside | outside
  · have left := run.activity.left_drop (host.environment (host.engine engine))
    rw [engine_absorb_self host inside]
    refine left.entries.trans (List.filter_congr fun entry lies => ?_)
    exact decide_eq_decide.mpr (not_congr (keeping.under_iff found alone inside lies))
  · rw [engine_absorb_of_le host outside, Desk.requestsBeside, desk_of_le outside]
    rfl

/-- The boxes of other tasks stay as they are. -/
theorem Keeping.letter_leaves (alone : host.Alone engine place run.execution)
    {other : Task.Place} (differ : other ≠ place) {task : Task}
    (present : host.task? other = some task) {seat : Seat} (held : seat ∈ task.seatsAt engine) :
    ((host.after (.leaves place)).engine engine).desk.letter seat.ticket =
      (host.engine engine).desk.letter seat.ticket := by
  rw [engine_leaves found]
  rcases Nat.lt_or_ge engine host.engines.length with inside | outside
  · -- The seats of all other tasks are those beside which the run leaves its own.
    have untouched : (host.engine engine).desk.Untouched run.execution
        (run.activity.seats ++ (host.put .taken place).seatsAt engine)
        (host.engine engine).desk := by
      have orderly := (keeping.desks engine inside).perm (seatsAt_of_task? found engine)
      rw [Task.seatsAt_running] at orderly
      exact ⟨orderly, fun _ _ _ => rfl⟩
    have among : seat ∈ (host.put .taken place).seatsAt engine := by
      have stays : (host.put .taken place).task? other = some task :=
        (task?_put_of_ne differ.symm).trans present
      exact List.mem_flatMap.mpr ⟨task, mem_tasks_of_task? stays, held⟩
    have foreign : seat.key.execution ≠ run.execution :=
      fun own => differ ((keeping.seats_own found alone present held).mp own)
    have kept := (keeping.asks_own found).drop
      (Desk.keeps_untouched (host.engine engine).desk run.execution)
      (host.environment (host.engine engine)) _ untouched
    rw [engine_absorb_self host inside]
    exact kept.2 seat among foreign
  · rw [engine_absorb_of_le host outside]

/-- A run that is dropped, alone with its execution, takes its own requests with it and touches
nothing else. -/
theorem Keeping.drops (alone : host.Alone engine place run.execution) :
    host.Drops (host.after (.leaves place)) engine place run.execution where
  entries := keeping.entries_leaves found alone
  boxes _ differ _ present _ held := keeping.letter_leaves found alone differ present held
  elsewhere other differ := by
    rw [engine_leaves found, engine_absorb_of_ne host differ]
  library := by
    obtain ⟨desk, calls, same⟩ :=
      (run.activity.left_drop (host.environment (host.engine engine))).rest
    rw [after_leaves found, Run.drop, same]
    cases place <;> rfl
  tasks other differ := by
    rw [Host.after, dismiss_of_task? found]
    exact (swaps_clear found (sameTasks_drop host _)).others other differ

end

/-- In a hall, and on a host whatever has happened there, every request on a desk belongs to a step
in progress that was the last to ask under its key, and without such a step there is no request. A
run that is dropped, alone with its execution, takes exactly its own requests with it. -/
theorem no_request_leaks :
    (∀ (environment : Environment) (moves : List Move) (hall : Hall),
      (Hall.opening environment).Run moves hall →
        (∀ entry ∈ hall.desk.entries, hall.Held moves entry) ∧
        (hall.sitters = [] → hall.desk.entries = [])) ∧
    ∀ host : Host, host.Fresh → ∀ incidents,
      (∀ index,
        (∀ entry ∈ ((host.afterAll incidents).engine index).desk.entries,
          ∃ run seat, host.Belongs incidents index entry run seat) ∧
        ((∀ run, .running index run ∉ (host.afterAll incidents).tasks) →
          ((host.afterAll incidents).engine index).desk.entries = [])) ∧
      (host.AsksWithin → ∀ engine place run,
        (host.afterAll incidents).task? place = some (.running engine run) →
        (host.afterAll incidents).Alone engine place run.execution →
        (host.afterAll incidents).Drops ((host.afterAll incidents).after (.leaves place)) engine
          place run.execution) := by
  refine ⟨fun environment moves hall run => ⟨run.held, run.entries_nil⟩, ?_⟩
  intro host fresh incidents
  refine ⟨fun index => ⟨fun entry lies => fresh.belongs lies, fresh.entries_nil⟩, ?_⟩
  intro within engine place run found alone
  have keeping := (fresh.keeping within.conducts).afterAll (fun _ => Desk.keeps_orderly) incidents
  exact keeping.drops found alone

/-! ## Two runs that wait -/

/-- A host with a workflow of one review, and with an executor that nobody needs. -/
def reception : Host :=
  .new { Library.builtIn with definitions := [("review", ⟨"review", none, none, .manual,
    [Hall.plainReview "review"], [], []⟩)] } (.empty []) [.new .usual [.named "other" .dispatch]]

/-- Two runs begin. -/
def arrivals : List Incident :=
  [.begins 0 "review" "first" .null, .begins 0 "review" "second" .null]

/-- The keys of the requests on the desk. -/
def keys (host : Host) : List ReviewKey := (host.engine 0).desk.entries.map OpenRequest.key

/-- Nothing has happened at the reception. -/
theorem reception_fresh : reception.Fresh :=
  ⟨by simp [reception, Host.new, Engine.new], rfl, rfl⟩

/-- The reception has no executor that asks outside an execution. -/
theorem reception_asksWithin : reception.AsksWithin := by
  intro index executor known
  cases index with
  | zero =>
    obtain rfl := List.mem_singleton.mp known
    exact CustomExecutor.named_asksWithin "other" .dispatch
  | succ number => cases known

/-- Of two steps that ask under one key only the second has a request on the desk. The request of a
run that is dropped goes with it, and that of another run stays. -/
theorem no_request_leaks_dropped :
    (∃ moves, (Hall.opening .idle).Run moves Hall.twoReviews ∧
      Hall.twoReviews.Held moves Hall.secondRequest) ∧
    (Hall.opening .idle).desk.entries = [] ∧ (reception.engine 0).desk.entries = [] ∧
    (reception.afterAll arrivals).keys = [⟨"first", "review"⟩, ⟨"second", "review"⟩] ∧
    (∀ entry ∈ ((reception.afterAll arrivals).engine 0).desk.entries,
      ∃ run seat, reception.Belongs arrivals 0 entry run seat) ∧
    ((reception.afterAll arrivals).after (.leaves (.background 0))).keys =
      [⟨"second", "review"⟩] ∧
    (reception.afterAll arrivals).Drops
      ((reception.afterAll arrivals).after (.leaves (.background 0))) 0 (.background 0)
      "first" := by
  obtain ⟨inHall, onHost⟩ := no_request_leaks
  obtain ⟨moves, asked⟩ := Hall.twoReviews_run
  have lies : Hall.secondRequest ∈ Hall.twoReviews.desk.entries := by decide
  have idle := (onHost reception reception_fresh []).1 0
  have busy := onHost reception reception_fresh arrivals
  have found : ∃ run, (reception.afterAll arrivals).task? (.background 0) =
      some (.running 0 run) ∧ run.execution = "first" := ⟨_, rfl, rfl⟩
  have second : ∃ run, (reception.afterAll arrivals).task? (.background 1) =
      some (.running 0 run) ∧ run.execution = "second" := ⟨_, rfl, rfl⟩
  obtain ⟨run, runs, own⟩ := found
  obtain ⟨other, otherRuns, otherOwn⟩ := second
  have alone : (reception.afterAll arrivals).Alone 0 (.background 0) run.execution := by
    rw [own]
    intro place differ rival rivals
    match place with
    | .foreground => cases rivals
    | .background 0 => exact absurd rfl differ
    | .background 1 =>
      obtain ⟨-, rfl⟩ := Task.running.inj (Option.some.inj (otherRuns.symm.trans rivals))
      rw [otherOwn]
      decide
    | .background (number + 2) => cases rivals
  have dropped := busy.2 reception_asksWithin 0 (.background 0) run runs alone
  rw [own] at dropped
  exact ⟨⟨moves, asked, (inHall _ moves _ asked).1 _ lies⟩, (inHall .idle [] _ .here).2 rfl,
    idle.2 fun run known => List.not_mem_nil known, by decide +kernel, (busy.1 0).1,
    by decide +kernel, dropped⟩

end Host

end Workflow
