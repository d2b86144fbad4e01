import Mathlib.Data.Nat.Find
import Mathlib.Order.Monotone.Basic
import Workflow.Execution.Group
import Workflow.Proofs.Execution.Calls

/-!
# Processes in the course of time

A history says in which environment a process is started and in which ones it goes on, turn by turn.
Time goes on without end and the same actions stay registered; all else is left open. A process is
punctual in a history if no turn comes later than an alarm that it has set. `Process.Gives` says
that a process ends with an outcome in every history in which it is punctual, so the outcome does
not depend on when the process runs.

Processes that run side by side have histories of their own: each goes on in the environment that
the one before it has left. When all of them have ended, what follows begins a history as well.
`Process.Gives.together` puts this together.
-/
namespace Workflow

/-- The environments of the turns of a process. -/
structure History (table : ActionRegistry) where
  /-- The environment in which a turn is taken. -/
  moment : Nat → Environment
  /-- The same actions stay registered. -/
  actions : ∀ turn, table.Same (moment turn).actions
  /-- No turn comes before an earlier one. -/
  onward : ∀ turn, (moment turn).now ≤ (moment (turn + 1)).now
  /-- Time goes on without end. -/
  endless : ∀ time, ∃ turn, time ≤ (moment turn).now

namespace Process

variable {table : ActionRegistry}

/-- What has become of a process and its environment after a turn. -/
def turn (process : Process) (moment : Nat → Environment) : Nat → Environment × Activity
  | 0 => process.start (moment 0)
  | turn + 1 => (process.turn moment turn).2.resume (moment (turn + 1))

/-- No turn comes later than an alarm that the process has set and that has not rung. -/
def Punctual (process : Process) (history : History table) : Prop :=
  ∀ turn, ∀ alarm ∈ (process.turn history.moment turn).2.alarms,
    (history.moment turn).now < alarm.time → (history.moment (turn + 1)).now ≤ alarm.time

/-- The process ends with an outcome, whatever its history. -/
def Gives (process : Process) (table : ActionRegistry) (outcome : Outcome) : Prop :=
  ∀ history : History table, process.Punctual history →
    ∃ turn, (process.turn history.moment turn).2 = .ended outcome

/-- What has ended stays as it is. -/
theorem turn_ended {process : Process} {moment : Nat → Environment} {turn later : Nat}
    {outcome : Outcome} (ended : (process.turn moment turn).2 = .ended outcome)
    (after : turn ≤ later) : (process.turn moment later).2 = .ended outcome := by
  induction after with
  | refl => exact ended
  | step _ ih => rw [Process.turn, ih, Activity.resume]

/-! ## What turns leave alone -/

/-- A turn takes no time and registers no action. -/
def SameMoment (first later : Environment) : Prop :=
  later.now = first.now ∧ first.actions.Same later.actions

/-- An environment is of its own moment. -/
theorem SameMoment.refl (environment : Environment) : SameMoment environment environment :=
  ⟨rfl, .refl _⟩

/-- Whatever is done by rules that rely on no action stays in the moment in which it was begun. -/
theorem keeps_sameMoment {rules : Rules} (free : ∀ action, ¬rules.registered action)
    (first : Environment) : rules.Keeps fun _ environment => SameMoment first environment where
  order known _ := known
  quiet known quiet := ⟨quiet.now.trans known.1, known.2.trans quiet.actions⟩
  warn _ known _ := known
  found _ registered := absurd registered (free _)
  sitDown _ known _ := known
  discard _ known _ := known
  leave known _ := known

/-- After every turn a process obeys rules that forbid nothing, and the turn has stayed in its
moment. -/
theorem turn_free (process : Process) (moment : Nat → Environment) (turn : Nat) :
    (process.turn moment turn).2.Obeys Rules.free ∧
      SameMoment (moment turn) (process.turn moment turn).1 := by
  have first : ∀ turn, SameMoment (moment turn) (moment turn) := fun _ => ⟨rfl, .refl _⟩
  have keeps : ∀ first, Rules.free.Keeps fun _ environment => SameMoment first environment :=
    keeps_sameMoment fun _ impossible => impossible
  induction turn with
  | zero => exact process.obeys_free.start (keeps _) (moment 0) [] (first 0)
  | succ turn ih => exact ih.1.resume (keeps _) (moment (turn + 1)) [] (first (turn + 1))

end Process

namespace Activity

/-- Whoever has ended has set no alarm. -/
@[simp] theorem allAlarms_ended (outcomes : List Outcome) :
    allAlarms (outcomes.map .ended) = [] := by
  induction outcomes with
  | nil => rfl
  | cons outcome rest ih => exact ih

/-- Members that have ended do nothing more. -/
theorem resumeAll_ended (environment : Environment) (outcomes : List Outcome) :
    resumeAll environment (outcomes.map .ended) = (environment, outcomes.map .ended) := by
  induction outcomes with
  | nil => rfl
  | cons outcome rest ih =>
    rw [List.map_cons, resumeAll, resume]
    simp only [ih]

end Activity

namespace History

variable {table : ActionRegistry}

/-- Later turns are not earlier in time. -/
theorem now_le (history : History table) {turn later : Nat} (after : turn ≤ later) :
    (history.moment turn).now ≤ (history.moment later).now :=
  monotone_nat_of_le_succ history.onward after

/-- The history of what takes its turns after a process. -/
def past (history : History table) (process : Process) : History table where
  moment turn := (process.turn history.moment turn).1
  actions turn := (history.actions turn).trans (process.turn_free history.moment turn).2.2
  onward turn := by
    rw [(process.turn_free history.moment turn).2.1, (process.turn_free history.moment _).2.1]
    exact history.onward turn
  endless time := by
    obtain ⟨turn, reached⟩ := history.endless time
    exact ⟨turn, by rwa [(process.turn_free history.moment turn).2.1]⟩

/-- Whoever takes his turns after a process takes them at the same times. -/
theorem now_past (history : History table) (process : Process) (turn : Nat) :
    ((history.past process).moment turn).now = (history.moment turn).now :=
  (process.turn_free history.moment turn).2.1

/-- The environments of the turns of what begins within a turn. -/
def momentSince (history : History table) (begins : Nat) (first : Environment) :
    Nat → Environment
  | 0 => first
  | turn + 1 => history.moment (begins + turn + 1)

/-- The history of what begins within a turn. -/
def since (history : History table) (begins : Nat) {first : Environment}
    (same : Process.SameMoment (history.moment begins) first) : History table where
  moment := history.momentSince begins first
  actions turn := by
    cases turn with
    | zero => exact (history.actions begins).trans same.2
    | succ turn => exact history.actions _
  onward turn := by
    cases turn with
    | zero => exact same.1 ▸ history.onward begins
    | succ turn => exact history.onward _
  endless time := by
    obtain ⟨turn, reached⟩ := history.endless time
    refine ⟨turn + 1, Nat.le_trans reached (history.now_le ?_)⟩
    omega

/-- What begins within a turn takes its further turns at the same times. -/
theorem now_since (history : History table) (begins : Nat) {first : Environment}
    (same : Process.SameMoment (history.moment begins) first) (turn : Nat) :
    ((history.since begins same).moment turn).now = (history.moment (begins + turn)).now := by
  cases turn with
  | zero => exact same.1
  | succ turn => rfl

end History

namespace Process

variable {table : ActionRegistry} {outcome : Outcome}

/-! ## One process after another -/

/-- A process that in some turn is followed by another one gives what the other one gives. -/
theorem Gives.of_since {process next : Process} {history : History table} {begins : Nat}
    {first : Environment} (gives : next.Gives table outcome)
    (same : SameMoment (history.moment begins) first)
    (joins : process.turn history.moment begins = next.start first)
    (punctual : process.Punctual history) :
    ∃ turn, (process.turn history.moment turn).2 = .ended outcome := by
  have turns : ∀ turn, process.turn history.moment (begins + turn) =
      next.turn (history.momentSince begins first) turn := by
    intro turn
    induction turn with
    | zero => exact joins
    | succ turn ih =>
      rw [← Nat.add_assoc, Process.turn, ih, Process.turn]
      rfl
  obtain ⟨turn, ended⟩ := gives (history.since begins same) (by
    intro turn alarm set
    rw [history.now_since, history.now_since]
    refine punctual (begins + turn) alarm ?_
    rw [turns]
    exact set)
  exact ⟨begins + turn, by rw [turns]; exact ended⟩

/-- A settled process gives its outcome. -/
theorem Gives.settle (table : ActionRegistry) (outcome : Outcome) :
    (Process.settle outcome).Gives table outcome := fun _ _ => ⟨0, rfl⟩

/-- A warning does not change what a process gives. -/
theorem Gives.warn {next : Process} (gives : next.Gives table outcome) (warning : Warning) :
    (Process.warn warning next).Gives table outcome := by
  intro history punctual
  have same : SameMoment (history.moment 0) ((history.moment 0).warn warning) := ⟨rfl, .refl _⟩
  exact gives.of_since same (by rw [turn, Process.start]) punctual

/-- Warnings do not change what a process gives. -/
theorem Gives.warnAll {next : Process} (gives : next.Gives table outcome)
    (warnings : List Warning) : (Process.warnAll warnings next).Gives table outcome := by
  induction warnings with
  | nil => exact gives
  | cons warning rest ih => exact ih.warn warning

/-- What is registered in the table is found in every turn. -/
theorem Gives.lookUp {action : String} {next : Option Registration → Process}
    (gives : (next (table.find? action)).Gives table outcome) :
    (Process.lookUp action next).Gives table outcome := by
  intro history punctual
  have same : SameMoment (history.moment 0) (history.moment 0) := ⟨rfl, .refl _⟩
  refine gives.of_since same ?_ punctual
  rw [turn, Process.start, (history.actions 0).find?]

/-- A process that waits for a call goes on waiting as long as the call has not ended. -/
theorem turn_calling {process : Process} {moment : Nat → Environment} {call : Call}
    {next : CallEnd → Process} (begun : (process.turn moment 0).2 = .calling call next) {last : Nat}
    (pending : ∀ turn < last, (moment (turn + 1)).callEnd? call = none) :
    (process.turn moment last).2 = .calling call next := by
  induction last with
  | zero => exact begun
  | succ last ih =>
    have waits := ih fun turn before => pending turn (Nat.lt_succ_of_lt before)
    rw [Process.turn, waits, Activity.resume, pending last (Nat.lt_succ_self _)]

/-- An action that answers after a fixed time gives its answer, unless the limit comes first. -/
theorem Gives.call {registration : Registration} {action : Action} {input : Value}
    {limit : Option Nat} {next : CallEnd → Process} {delay : Nat}
    {result : Except ActionError Value}
    (found : table.registrations[registration]?.map Registered.action = some action)
    (answers : ∀ earlier, action.answer earlier input = .after delay result)
    (inTime : ∀ cut, limit = some cut → delay ≤ cut)
    (gives : (next (.returned result)).Gives table outcome) :
    (Process.call registration input limit next).Gives table outcome := by
  intro history punctual
  have begun := (history.moment 0).quiet_beginCall registration input limit
  obtain ⟨earlier, answer⟩ := (history.actions 0).answered found input
  have ends := (history.moment 0).callEnd?_in_time (answer.trans (answers earlier)) inTime
  generalize called : (history.moment 0).beginCall registration input limit = begin at begun ends
  obtain ⟨call, environment⟩ := begin
  have sameTime : environment.now = (history.moment 0).now := begun.now
  -- The call ends in the first turn in which the delay is over.
  have finish := history.endless ((history.moment 0).now + delay)
  classical
  have due := Nat.find_spec finish
  have early : ∀ turn < Nat.find finish,
      ¬(history.moment 0).now + delay ≤ (history.moment turn).now :=
    fun turn before => Nat.find_min finish before
  generalize Nat.find finish = last at due early
  cases last with
  | zero =>
    have same := begun.trans (environment.quiet_recordEnd call (.returned result))
    refine gives.of_since ⟨same.now, same.actions⟩ ?_ punctual
    rw [Process.turn, Process.start]
    simp only [called, ends, sameTime]
    rw [if_pos due]
  | succ turn =>
    have waits : ((Process.call registration input limit next).turn history.moment turn).2 =
        .calling call next := by
      apply turn_calling
      · rw [Process.turn, Process.start]
        simp only [called, ends, sameTime]
        rw [if_neg (early 0 (Nat.succ_pos turn))]
      · intro before earlier
        rw [ends, if_neg (early _ (Nat.succ_lt_succ earlier))]
    have same := (history.moment (turn + 1)).quiet_recordEnd call (.returned result)
    refine gives.of_since ⟨same.now, same.actions⟩ ?_ punctual
    rw [Process.turn, waits, Activity.resume, ends, if_pos due]

/-! ## Processes side by side -/

/-- What has become of processes and their environment after a turn of each in order. -/
def turnAll (members : List Process) (moment : Nat → Environment) :
    Nat → Environment × List Activity
  | 0 => startAll (moment 0) members
  | turn + 1 => Activity.resumeAll (moment (turn + 1)) (turnAll members moment turn).2

/-- Where nobody takes turns the environment is that of the moment. -/
theorem turnAll_nil (moment : Nat → Environment) (turn : Nat) :
    turnAll [] moment turn = (moment turn, []) := by
  induction turn with
  | zero => rfl
  | succ turn ih => rw [turnAll, ih, Activity.resumeAll]

/-- The turns of several processes are those of the first, then those of the others after it. -/
theorem turnAll_cons (first : Process) (rest : List Process) (history : History table)
    (turn : Nat) : turnAll (first :: rest) history.moment turn =
      ((turnAll rest (history.past first).moment turn).1,
        (first.turn history.moment turn).2 ::
          (turnAll rest (history.past first).moment turn).2) := by
  induction turn with
  | zero => rfl
  | succ turn ih =>
    rw [turnAll, ih, Activity.resumeAll]
    rfl

/-- The turns of several processes take no time. -/
theorem sameMoment_turnAll (members : List Process) (history : History table) (turn : Nat) :
    SameMoment (history.moment turn) (turnAll members history.moment turn).1 := by
  induction members generalizing history with
  | nil =>
    rw [turnAll_nil]
    exact ⟨rfl, .refl _⟩
  | cons first rest ih =>
    rw [turnAll_cons]
    have turned := (first.turn_free history.moment turn).2
    have later := ih (history.past first)
    exact ⟨later.1.trans turned.1, turned.2.trans later.2⟩

/-- Members end with what they give, if no turn of theirs comes too late. -/
theorem turnAll_ended {members : List Process} {outcomes : List Outcome}
    (gives : List.Forall₂ (fun member outcome => member.Gives table outcome) members outcomes)
    (history : History table)
    (punctual : ∀ turn, ∀ alarm ∈ Activity.allAlarms (turnAll members history.moment turn).2,
      (history.moment turn).now < alarm.time → (history.moment (turn + 1)).now ≤ alarm.time) :
    ∃ last, ∀ turn, last ≤ turn →
      (turnAll members history.moment turn).2 = outcomes.map .ended := by
  induction gives generalizing history with
  | nil => exact ⟨0, fun turn _ => by rw [turnAll_nil, List.map_nil]⟩
  | @cons first outcome rest others firstGives _ ih =>
    simp only [turnAll_cons, Activity.allAlarms, List.mem_append] at punctual
    obtain ⟨firstLast, firstEnded⟩ := firstGives history fun turn alarm set =>
      punctual turn alarm (.inl set)
    obtain ⟨restLast, restEnded⟩ := ih (history.past first) fun turn alarm set => by
      rw [history.now_past, history.now_past]
      exact punctual turn alarm (.inr set)
    refine ⟨max firstLast restLast, fun turn after => ?_⟩
    rw [turnAll_cons, turn_ended firstEnded (by omega), restEnded turn (by omega), List.map_cons]

section Together

variable {members : List Process} {next : List Outcome → Process} {history : History table}

/-- Until all members have ended the process waits for them. -/
theorem turn_together {turn : Nat}
    (waits : ∀ earlier ≤ turn,
      Activity.outcomes? (turnAll members history.moment earlier).2 = none) :
    (Process.together members next).turn history.moment turn =
      ((turnAll members history.moment turn).1,
        .together (turnAll members history.moment turn).2 next) := by
  induction turn with
  | zero =>
    have unfinished := waits 0 (Nat.le_refl 0)
    rw [turnAll] at unfinished ⊢
    rw [Process.turn, Process.start]
    simp only [unfinished]
  | succ turn ih =>
    have unfinished := waits (turn + 1) (Nat.le_refl _)
    rw [turnAll] at unfinished ⊢
    rw [Process.turn, ih fun earlier before => waits earlier (by omega), Activity.resume]
    simp only [unfinished]

/-- In the turn in which all members have ended, what follows them begins. -/
theorem turn_join {turn : Nat} {outcomes : List Outcome}
    (waits : ∀ earlier < turn,
      Activity.outcomes? (turnAll members history.moment earlier).2 = none)
    (ended : Activity.outcomes? (turnAll members history.moment turn).2 = some outcomes) :
    (Process.together members next).turn history.moment turn =
      (next outcomes).start (turnAll members history.moment turn).1 := by
  cases turn with
  | zero =>
    rw [turnAll] at ended ⊢
    rw [Process.turn, Process.start]
    simp only [ended]
  | succ turn =>
    have waiting : (Process.together members next).turn history.moment turn =
        ((turnAll members history.moment turn).1,
          .together (turnAll members history.moment turn).2 next) :=
      turn_together fun earlier before => waits earlier (Nat.lt_succ_of_le before)
    rw [turnAll] at ended ⊢
    rw [Process.turn, waiting, Activity.resume]
    simp only [ended]

/-- As long as members wait, no turn comes too late for them; when they have ended, none can. -/
theorem punctual_members {last : Nat}
    (punctual : (Process.together members next).Punctual history)
    (waits : ∀ earlier < last,
      Activity.outcomes? (turnAll members history.moment earlier).2 = none)
    (ended : ∀ turn, last ≤ turn →
      ∃ outcomes : List Outcome, (turnAll members history.moment turn).2 = outcomes.map .ended) :
    ∀ turn, ∀ alarm ∈ Activity.allAlarms (turnAll members history.moment turn).2,
      (history.moment turn).now < alarm.time → (history.moment (turn + 1)).now ≤ alarm.time := by
  intro turn alarm set
  rcases Nat.lt_or_ge turn last with before | after
  · refine punctual turn alarm ?_
    rw [turn_together fun earlier within => waits earlier (by omega)]
    exact set
  · obtain ⟨outcomes, all⟩ := ended turn after
    rw [all, Activity.allAlarms_ended] at set
    cases set

/-- Members that have all ended stay so. -/
theorem turnAll_stays {turn later : Nat} {outcomes : List Outcome}
    (ended : (turnAll members history.moment turn).2 = outcomes.map .ended)
    (after : turn ≤ later) :
    (turnAll members history.moment later).2 = outcomes.map .ended := by
  induction after with
  | refl => exact ended
  | step _ ih => rw [turnAll, ih, Activity.resumeAll_ended]

end Together

/-- Processes side by side, each of which gives an outcome, are followed by what follows the
outcomes. -/
theorem Gives.together {members : List Process} {outcomes : List Outcome}
    {next : List Outcome → Process}
    (each : List.Forall₂ (fun member outcome => member.Gives table outcome) members outcomes)
    (later : (next outcomes).Gives table outcome) :
    (Process.together members next).Gives table outcome := by
  intro history punctual
  -- If the members never had ended all, no turn would come too late for any of them, so they would.
  have finish : ∃ turn, ∃ ended,
      Activity.outcomes? (turnAll members history.moment turn).2 = some ended := by
    by_contra never
    simp only [not_exists] at never
    have waits : ∀ turn, Activity.outcomes? (turnAll members history.moment turn).2 = none :=
      fun turn => Option.eq_none_iff_forall_ne_some.mpr (never turn)
    obtain ⟨last, all⟩ := turnAll_ended each history fun turn alarm set => by
      refine punctual turn alarm ?_
      rw [turn_together fun earlier _ => waits earlier]
      exact set
    exact never last outcomes (Activity.outcomes?_eq_some.mpr (all last (Nat.le_refl _)))
  classical
  obtain ⟨ended, first⟩ := Nat.find_spec finish
  have waits : ∀ earlier < Nat.find finish,
      Activity.outcomes? (turnAll members history.moment earlier).2 = none := by
    intro earlier before
    have unfinished := Nat.find_min finish before
    simp only [not_exists] at unfinished
    exact Option.eq_none_iff_forall_ne_some.mpr unfinished
  generalize Nat.find finish = begins at first waits
  have stays : ∀ later, begins ≤ later →
      (turnAll members history.moment later).2 = ended.map .ended :=
    fun _ => turnAll_stays (Activity.outcomes?_eq_some.mp first)
  -- The outcomes that were found in that turn are those that the members give.
  obtain ⟨last, all⟩ := turnAll_ended each history
    (punctual_members punctual waits fun turn after => ⟨ended, stays turn after⟩)
  have same : ended = outcomes := by
    have found := all (max begins last) (Nat.le_max_right _ _)
    rw [stays _ (Nat.le_max_left _ _)] at found
    exact List.map_injective_iff.mpr (fun _ _ equal => Activity.ended.inj equal) found
  subst same
  exact later.of_since (sameMoment_turnAll members history begins) (turn_join waits first) punctual

/-! ## Clocks that tick -/

/-- The history in which nothing happens but that the time goes on. -/
def ticking (table : ActionRegistry) : History table where
  moment turn := { Environment.idle with now := turn, actions := table }
  actions _ := .refl table
  onward turn := Nat.le_succ turn
  endless time := ⟨time, Nat.le_refl time⟩

/-- Every process is punctual while a clock ticks, so a process gives at most one outcome. -/
theorem Gives.unique {process : Process} {other : Outcome} (gives : process.Gives table outcome)
    (also : process.Gives table other) : outcome = other := by
  have punctual : process.Punctual (ticking table) := fun turn alarm _ ahead => ahead
  obtain ⟨first, ended⟩ := gives _ punctual
  obtain ⟨second, endedAlso⟩ := also _ punctual
  have one := turn_ended ended (Nat.le_max_left first second)
  have two := turn_ended endedAlso (Nat.le_max_right first second)
  exact Activity.ended.inj (one.symm.trans two)

end Process

end Workflow
