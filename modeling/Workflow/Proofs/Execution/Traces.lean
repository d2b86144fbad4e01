import Workflow.Proofs.Execution.Histories

/-!
# The calls that a process makes

While a process is neither at the desk nor made of others it makes one call after another.
`Process.Exchanges` follows it through its turns and tells each call with what the action was going
to answer, how the call ended and when. What it tells is what happens: the process takes its turns
in just this way, and there is only one such tale.

A call whose end is due at some time is found to have ended at that time, if no turn of the process
comes too late. This is what leads a tale on from one call to the next.
-/
namespace Workflow

/-- A point within a turn of a process. -/
structure Instant where
  turn : Nat
  environment : Environment

/-- A call that a process has made. -/
structure Exchange where
  registration : Registration
  input : Value
  limit : Option Nat
  /-- What the action was going to answer. -/
  answer : Answer
  /-- How the call ended. -/
  callEnd : CallEnd
  begins : Nat
  ends : Nat

/-- Whoever waits for a call in some turn finds that it has ended, in this turn or in a later
one. -/
inductive Call.Awaits (moment : Nat → Environment) (call : Call) :
    Instant → CallEnd → Instant → Prop where
  | found {instant : Instant} {callEnd : CallEnd}
      (ended : instant.environment.callEnd? call = some callEnd) :
      Awaits moment call instant callEnd instant
  | later {instant last : Instant} {callEnd : CallEnd}
      (unended : instant.environment.callEnd? call = none)
      (awaits : Awaits moment call ⟨instant.turn + 1, moment (instant.turn + 1)⟩ callEnd last) :
      Awaits moment call instant callEnd last

/-- From some point on a process makes calls until it ends. -/
inductive Process.Exchanges (moment : Nat → Environment) :
    Process → Instant → List Exchange → Outcome → Instant → Prop where
  | settle {outcome : Outcome} {instant : Instant} :
      Exchanges moment (.settle outcome) instant [] outcome instant
  | warn {warning : Warning} {next : Process} {instant last : Instant}
      {exchanges : List Exchange} {outcome : Outcome}
      (rest : Exchanges moment next ⟨instant.turn, instant.environment.warn warning⟩ exchanges
        outcome last) :
      Exchanges moment (.warn warning next) instant exchanges outcome last
  | lookUp {action : String} {next : Option Registration → Process} {instant last : Instant}
      {exchanges : List Exchange} {outcome : Outcome}
      (rest : Exchanges moment (next (instant.environment.actions.find? action)) instant exchanges
        outcome last) :
      Exchanges moment (.lookUp action next) instant exchanges outcome last
  | call {registration : Registration} {input : Value} {limit : Option Nat}
      {next : CallEnd → Process} {instant found last : Instant} {callEnd : CallEnd}
      {exchanges : List Exchange} {outcome : Outcome}
      (awaits : (instant.environment.beginCall registration input limit).1.Awaits moment
        ⟨instant.turn, (instant.environment.beginCall registration input limit).2⟩ callEnd found)
      (rest : Exchanges moment (next callEnd) ⟨found.turn, found.environment.recordEnd
        (instant.environment.beginCall registration input limit).1 callEnd⟩ exchanges
        outcome last) :
      Exchanges moment (.call registration input limit next) instant
        (⟨registration, input, limit, (instant.environment.actions.call registration input).1,
          callEnd, instant.environment.now, found.environment.now⟩ :: exchanges) outcome last

/-! ## What is told is what happens -/

/-- In the turn in which the end of a call comes its process goes on with it. -/
theorem Call.Awaits.turn_eq {moment : Nat → Environment} {call : Call} {instant last : Instant}
    {callEnd : CallEnd} (awaits : call.Awaits moment instant callEnd last) {whole : Process}
    {next : CallEnd → Process}
    (stands : whole.turn moment instant.turn = (Activity.calling call next).resume
      instant.environment) : whole.turn moment last.turn =
        (next callEnd).start (last.environment.recordEnd call callEnd) := by
  induction awaits with
  | found ended =>
    rw [stands, Activity.resume, ended]
  | later unended _ ih =>
    apply ih
    rw [Process.turn, stands, Activity.resume, unended]

namespace Process

/-- The process takes its turns as is told. -/
theorem Exchanges.turn_eq {moment : Nat → Environment} {process : Process}
    {instant last : Instant} {exchanges : List Exchange} {outcome : Outcome}
    (told : process.Exchanges moment instant exchanges outcome last) {whole : Process}
    (stands : whole.turn moment instant.turn = process.start instant.environment) :
    whole.turn moment last.turn = (last.environment, .ended outcome) := by
  induction told with
  | settle => rw [stands, start]
  | warn _ ih => exact ih (by rw [stands, start])
  | lookUp _ ih => exact ih (by rw [stands, start])
  | call awaits _ ih => exact ih (awaits.turn_eq (by rw [stands, start_call]))

end Process

/-- A call ends in one way and at one instant. -/
theorem Call.Awaits.unique {moment : Nat → Environment} {call : Call}
    {instant last other : Instant} {callEnd otherEnd : CallEnd}
    (awaits : call.Awaits moment instant callEnd last)
    (also : call.Awaits moment instant otherEnd other) : callEnd = otherEnd ∧ last = other := by
  induction awaits with
  | found ended =>
    cases also with
    | found again => exact ⟨Option.some.inj (ended.symm.trans again), rfl⟩
    | later unended _ => cases ended.symm.trans unended
  | later unended _ ih =>
    cases also with
    | found ended => cases ended.symm.trans unended
    | later _ awaits => exact ih awaits

/-- There is one tale of a process. -/
theorem Process.Exchanges.unique {moment : Nat → Environment} {process : Process}
    {instant last other : Instant} {exchanges others : List Exchange}
    {outcome otherOutcome : Outcome}
    (told : process.Exchanges moment instant exchanges outcome last)
    (also : process.Exchanges moment instant others otherOutcome other) :
    exchanges = others ∧ outcome = otherOutcome ∧ last = other := by
  induction told generalizing others with
  | settle =>
    cases also
    exact ⟨rfl, rfl, rfl⟩
  | warn _ ih =>
    cases also with
    | warn rest => exact ih rest
  | lookUp _ ih =>
    cases also with
    | lookUp rest => exact ih rest
  | call awaits _ ih =>
    cases also with
    | call again rest =>
      obtain ⟨rfl, rfl⟩ := awaits.unique again
      obtain ⟨rfl, same⟩ := ih rest
      exact ⟨rfl, same⟩

/-! ## Calls that end when they are due -/

/-- How an action that answers in some way ends within a limit, and after which time. An answer that
takes just as long as the limit is in time. -/
def Answer.within (limit : Option Nat) : Answer → Option (Nat × CallEnd)
  | .after delay result =>
    if limit.all (delay ≤ ·) then some (delay, .returned result) else limit.map (·, .cut)
  | .never => limit.map (·, .cut)

/-- At some time and not before, the call has ended in some way, and it has set an alarm for it. -/
structure Call.Due (call : Call) (time : Nat) (callEnd : CallEnd) : Prop where
  before : ∀ environment : Environment, environment.now < time → environment.callEnd? call = none
  due : ∀ environment : Environment, environment.now = time →
    environment.callEnd? call = some callEnd
  alarm : ∃ alarm ∈ call.alarms, alarm.time = time

/-- An answer that comes at a time has an alarm for it. -/
theorem Call.alarm_of_answer {call : Call} {time : Nat} {result : Except ActionError Value}
    (answer : call.answer.map (fun answer => (answer.1.time, answer.2)) = some (time, result)) :
    ∃ alarm ∈ call.alarms, alarm.time = time := by
  obtain ⟨⟨alarm, _⟩, given, same⟩ := Option.map_eq_some_iff.mp answer
  exact ⟨alarm, by simp [Call.alarms, given], (Prod.mk.inj same).1⟩

/-- A limit that is over at a time has an alarm for it. -/
theorem Call.alarm_of_cutAt {call : Call} {time : Nat}
    (cutAt : call.cutAt.map Alarm.time = some time) :
    ∃ alarm ∈ call.alarms, alarm.time = time := by
  obtain ⟨alarm, given, same⟩ := Option.map_eq_some_iff.mp cutAt
  exact ⟨alarm, by simp [Call.alarms, given], same⟩

/-- A call whose answer does not come within its limit is due when the limit is over. -/
theorem Environment.due_cut (environment : Environment) {registration : Registration}
    {input : Value} {cut : Nat}
    (late : ∀ delay result,
      (environment.actions.call registration input).1 = .after delay result → cut < delay) :
    (environment.beginCall registration input (some cut)).1.Due (environment.now + cut) .cut where
  before later early := by
    rw [environment.callEnd?_too_late late (Nat.le_of_lt early), if_neg (Nat.not_le.mpr early)]
  due later reached := by
    rw [environment.callEnd?_too_late late (Nat.le_of_eq reached),
      if_pos (Nat.le_of_eq reached.symm)]
  alarm := Call.alarm_of_cutAt (environment.beginCall_cutAt registration input (some cut))

/-- A call that has begun is due when its answer comes or the limit is over. -/
theorem Environment.due_beginCall (environment : Environment) {registration : Registration}
    {input : Value} {limit : Option Nat} {duration : Nat} {callEnd : CallEnd}
    (within : (environment.actions.call registration input).1.within limit =
      some (duration, callEnd)) :
    (environment.beginCall registration input limit).1.Due (environment.now + duration)
      callEnd := by
  cases given : (environment.actions.call registration input).1 with
  | never =>
    rw [given] at within
    obtain ⟨cut, rfl, same⟩ := Option.map_eq_some_iff.mp within
    cases same
    exact environment.due_cut (by simp [given])
  | after delay result =>
    rw [given, Answer.within] at within
    split at within
    next inTime =>
      cases within
      have answered : ∀ cut, limit = some cut → duration ≤ cut := by
        rintro cut rfl
        simpa using inTime
      have ends := environment.callEnd?_in_time given answered
      have answer := environment.beginCall_answer registration input limit
      rw [given] at answer
      refine ⟨fun later early => ?_, fun later reached => ?_, Call.alarm_of_answer answer⟩
      · rw [ends, if_neg (Nat.not_le.mpr early)]
      · rw [ends, if_pos (Nat.le_of_eq reached.symm)]
    next tooLate =>
      obtain ⟨cut, rfl, same⟩ := Option.map_eq_some_iff.mp within
      cases same
      have late : duration < delay := by simpa using tooLate
      apply environment.due_cut
      intro other answer also
      rw [given] at also
      injection also with same
      exact same ▸ late

namespace Process

variable {table : ActionRegistry} {history : History table} {whole : Process}

/-- A process has come to what it still does, at some point of its turns. -/
structure Stands (whole : Process) (history : History table) (process : Process)
    (instant : Instant) : Prop where
  turn : whole.turn history.moment instant.turn = process.start instant.environment
  same : SameMoment (history.moment instant.turn) instant.environment

/-- Where a process stands before a warning it stands behind it. -/
theorem Stands.warn {warning : Warning} {next : Process} {instant : Instant}
    (stands : whole.Stands history (.warn warning next) instant) :
    whole.Stands history next ⟨instant.turn, instant.environment.warn warning⟩ :=
  ⟨by rw [stands.turn, start], stands.same⟩

/-- Where a process looks up an action it stands behind the answer. -/
theorem Stands.lookUp {action : String} {next : Option Registration → Process} {instant : Instant}
    (stands : whole.Stands history (.lookUp action next) instant) :
    whole.Stands history (next (table.find? action)) instant := by
  have known := (history.actions instant.turn).trans stands.same.2
  exact ⟨by rw [stands.turn, start, known.find?], stands.same⟩

/-- Whoever waits for a call while time goes on finds its end at the time at which it is due. -/
theorem exists_awaits {call : Call} {next : CallEnd → Process} {time : Nat} {callEnd : CallEnd}
    (due : call.Due time callEnd) (punctual : whole.Punctual history) (count : Nat) :
    ∀ turn, (whole.turn history.moment turn).2 = .calling call next →
      (history.moment turn).now < time → time ≤ (history.moment (turn + count)).now →
      ∃ last, call.Awaits history.moment ⟨turn + 1, history.moment (turn + 1)⟩ callEnd
        ⟨last, history.moment last⟩ ∧ (history.moment last).now = time := by
  induction count with
  | zero => exact fun turn _ early reached => absurd reached (Nat.not_le.mpr early)
  | succ count ih =>
    intro turn waits early reached
    rcases Nat.lt_or_ge (history.moment (turn + 1)).now time with before | after
    · have unended := due.before _ before
      have waitsOn : (whole.turn history.moment (turn + 1)).2 = .calling call next := by
        rw [Process.turn, waits, Activity.resume, unended]
      rw [← Nat.add_assoc, Nat.add_right_comm] at reached
      obtain ⟨last, awaits, atTime⟩ := ih (turn + 1) waitsOn before reached
      exact ⟨last, .later unended awaits, atTime⟩
    · obtain ⟨alarm, set, atTime⟩ := due.alarm
      have inTime := punctual turn alarm (by rwa [waits]) (atTime ▸ early)
      have same : (history.moment (turn + 1)).now = time := by omega
      exact ⟨turn + 1, .found (due.due _ same), same⟩

/-- A call is made, ends when it is due, and the process goes on from there. -/
theorem Stands.call {registration : Registration} {input : Value} {limit : Option Nat}
    {next : CallEnd → Process} {instant : Instant} {duration : Nat} {callEnd : CallEnd}
    (stands : whole.Stands history (.call registration input limit next) instant)
    (punctual : whole.Punctual history)
    (within : (instant.environment.actions.call registration input).1.within limit =
      some (duration, callEnd)) :
    ∃ found, (instant.environment.beginCall registration input limit).1.Awaits history.moment
        ⟨instant.turn, (instant.environment.beginCall registration input limit).2⟩ callEnd found ∧
      found.environment.now = instant.environment.now + duration ∧
      whole.Stands history (next callEnd) ⟨found.turn, found.environment.recordEnd
        (instant.environment.beginCall registration input limit).1 callEnd⟩ := by
  have due := instant.environment.due_beginCall within
  have begun := instant.environment.quiet_beginCall registration input limit
  have turned := stands.turn
  rw [start_call] at turned
  generalize instant.environment.beginCall registration input limit = begin at *
  obtain ⟨call, environment⟩ := begin
  -- Wherever the end is found, the process goes on from there.
  have goesOn : ∀ found : Instant, call.Awaits history.moment ⟨instant.turn, environment⟩ callEnd
      found → SameMoment (history.moment found.turn) found.environment →
      whole.Stands history (next callEnd)
        ⟨found.turn, found.environment.recordEnd call callEnd⟩ := by
    intro found awaits same
    have recorded := found.environment.quiet_recordEnd call callEnd
    exact ⟨awaits.turn_eq turned,
      recorded.now.trans same.1, same.2.trans recorded.actions⟩
  have sameTime : environment.now = instant.environment.now := begun.now
  rcases Nat.eq_zero_or_pos duration with rfl | long
  · have atOnce := due.due environment sameTime
    refine ⟨_, .found atOnce, sameTime, goesOn _ (.found atOnce) ?_⟩
    exact ⟨sameTime.trans stands.same.1, stands.same.2.trans begun.actions⟩
  · have unended := due.before environment (by omega)
    have waits : (whole.turn history.moment instant.turn).2 = .calling call next := by
      rw [turned, Activity.resume, unended]
    obtain ⟨last, reached⟩ := history.endless (instant.environment.now + duration)
    have reached := Nat.le_trans reached (history.now_le (Nat.le_add_left last instant.turn))
    obtain ⟨last, awaits, atTime⟩ := exists_awaits due punctual last instant.turn waits
      (by have := stands.same.1; omega) reached
    exact ⟨_, .later unended awaits, atTime, goesOn _ (.later unended awaits) (.refl _)⟩

end Process

end Workflow
