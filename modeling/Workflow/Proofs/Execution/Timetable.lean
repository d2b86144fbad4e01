import Mathlib.Algebra.BigOperators.Group.Finset.Basic
import Mathlib.Data.Finset.Lattice.Fold
import Mathlib.Order.Interval.Finset.Nat
import Mathlib.Order.Lattice.Nat
import Workflow.Proofs.Execution.Standing

/-!
# The time that a group takes

A batch begins in the turn in which the one before it is over, and it is over in the turn in which
the last of its members ends. If each member settles a fixed time after it was dispatched, a batch
takes as long as its slowest member, and the group takes the sum of these times.
-/
namespace Workflow

/-! ## Sums over batches -/

/-- The time that the first members take in batches of a width: for each batch that of its slowest
member. -/
def elapsed (duration : Nat → Nat) (width count : Nat) : Nat :=
  ∑ batch ∈ Finset.range ((count + width - 1) / width),
    ((Finset.range count).filter (· / width = batch)).sup duration

/-- The time of one more batch is added if those before it are full. -/
theorem elapsed_add {width done more : Nat} (duration : Nat → Nat) (whole : width ∣ done)
    (some : 0 < more) (fits : more ≤ width) :
    elapsed duration width (done + more) =
      elapsed duration width done + (Finset.Ico done (done + more)).sup duration := by
  obtain ⟨full, rfl⟩ := whole
  have positive : 0 < width := by omega
  have before : (width * full + width - 1) / width = full :=
    Nat.div_eq_of_lt_le (by rw [Nat.mul_comm]; omega)
      (by rw [Nat.succ_mul, Nat.mul_comm full]; omega)
  have after : (width * full + more + width - 1) / width = full + 1 :=
    Nat.div_eq_of_lt_le (by rw [Nat.succ_mul, Nat.mul_comm full]; omega)
      (by rw [Nat.succ_mul, Nat.succ_mul, Nat.mul_comm full]; omega)
  have cell (position batch : Nat) : position / width = batch ↔
      width * batch ≤ position ∧ position < width * batch + width := by
    have below := Nat.div_mul_le_self position width
    have above : position < position / width * width + width := Nat.lt_div_mul_add positive
    constructor
    · rintro rfl
      rw [Nat.mul_comm]
      exact ⟨below, above⟩
    · rintro ⟨start, fin⟩
      exact Nat.div_eq_of_lt_le (by rwa [Nat.mul_comm]) (by rwa [Nat.succ_mul, Nat.mul_comm])
  rw [elapsed, elapsed, before, after, Finset.sum_range_succ]
  congr 1
  · refine Finset.sum_congr rfl fun batch earlier => ?_
    have last : width * (batch + 1) ≤ width * full :=
      Nat.mul_le_mul_left width (Finset.mem_range.mp earlier)
    rw [Nat.mul_succ] at last
    congr 1
    ext position
    simp only [Finset.mem_filter, Finset.mem_range, cell]
    omega
  · congr 1
    ext position
    simp only [Finset.mem_filter, Finset.mem_range, Finset.mem_Ico, cell]
    omega

/-- A batch takes as long as its slowest member. -/
theorem eq_add_sup {duration : Nat → Nat} {begun now done more : Nat}
    (each : ∀ place < more, begun + duration (done + place) ≤ now)
    (last : ∃ place < more, begun + duration (done + place) = now) :
    now = begun + (Finset.Ico done (done + more)).sup duration := by
  obtain ⟨slowest, within, rfl⟩ := last
  congr 1
  apply Nat.le_antisymm
  · exact Finset.le_sup (by rw [Finset.mem_Ico]; omega)
  · refine Finset.sup_le fun position inside => ?_
    rw [Finset.mem_Ico] at inside
    have bound := each (position - done) (by omega)
    rw [Nat.add_sub_cancel' inside.1] at bound
    omega

/-! ## Turns take no time -/

/-- To start a process takes no time. -/
theorem Process.now_start (process : Process) (environment : Environment) :
    (process.start environment).1.now = environment.now :=
  (process.turn_free (fun _ => environment) 0).2.1

/-- To go on takes no time. -/
theorem Activity.now_resume (activity : Activity) (environment : Environment) :
    (activity.resume environment).1.now = environment.now :=
  have keeps := Process.keeps_sameMoment (fun _ impossible => impossible) environment
  (activity.obeys_free.resume keeps environment [] (.refl environment)).2.1

/-- To warn of members that have failed takes no time. -/
theorem Environment.now_warnEnded (environment : Environment) (group : String)
    (ended : List (Step × Outcome)) :
    (environment.warnEnded group ended).now = environment.now := by
  rw [Environment.warnEnded]
  generalize ended.filterMap _ = warnings
  induction warnings generalizing environment with
  | nil => rfl
  | cons warning rest ih => exact ih (environment.warn warning)

/-- To heed a verdict takes no time. -/
theorem Environment.now_heed (environment : Environment) (verdict : Condition.Verdict) :
    (environment.heed verdict).now = environment.now := by
  rw [Environment.heed]
  split <;> rfl

/-- A settlement is entered at the time of its turn. -/
theorem time_settlement {time position : Nat} {activity : Activity} :
    ∀ entry ∈ settlement time position activity, entry.time = time := by
  cases activity <;> simp [settlement]

/-- A new settlement is entered at the time of its turn. -/
theorem time_newSettlement {time position : Nat} {before after : Activity} :
    ∀ entry ∈ newSettlement time position before after, entry.time = time := by
  cases before with
  | ended outcome => simp [newSettlement]
  | calling | seated | awaiting | together => exact time_settlement

/-- The members of a batch are dispatched at the time of the turn. -/
theorem dispatchAll_times (members : List (Step × Process)) (environment : Environment)
    (position : Nat) :
    (dispatchAll environment position members).1.now = environment.now ∧
      ∀ entry ∈ (dispatchAll environment position members).2.2, entry.time = environment.now := by
  induction members generalizing environment position with
  | nil => exact ⟨rfl, fun _ impossible => absurd impossible List.not_mem_nil⟩
  | cons member rest ih =>
    have started := member.2.now_start environment
    obtain ⟨left, times⟩ := ih (member.2.start environment).1 (position + 1)
    rw [started] at left times
    refine ⟨left, List.forall_mem_cons.mpr ⟨rfl, List.forall_mem_append.mpr ⟨?_, times⟩⟩⟩
    rw [started]
    exact time_settlement

/-- The members of a batch go on at the time of the turn. -/
theorem attendAll_times (batch : List (Step × Activity)) (environment : Environment)
    (position : Nat) :
    (attendAll environment position batch).1.now = environment.now ∧
      ∀ entry ∈ (attendAll environment position batch).2.2, entry.time = environment.now := by
  induction batch generalizing environment position with
  | nil => exact ⟨rfl, fun _ impossible => absurd impossible List.not_mem_nil⟩
  | cons member rest ih =>
    have resumed := member.2.now_resume environment
    obtain ⟨left, times⟩ := ih (member.2.resume environment).1 (position + 1)
    rw [resumed] at left times
    refine ⟨left, List.forall_mem_append.mpr ⟨?_, times⟩⟩
    rw [resumed]
    exact time_newSettlement

/-- Every member of a batch is dispatched, at the time of the turn. -/
theorem mem_dispatchAll {members : List (Step × Process)} {environment : Environment}
    {position place : Nat} (within : place < members.length) :
    ⟨environment.now, .dispatched (position + place)⟩ ∈
      (dispatchAll environment position members).2.2 := by
  induction members generalizing environment position place with
  | nil => simp at within
  | cons member rest ih =>
    cases place with
    | zero => exact List.mem_cons_self
    | succ place =>
      have later : ⟨(member.2.start environment).1.now, .dispatched (position + 1 + place)⟩ ∈
          (dispatchAll (member.2.start environment).1 (position + 1) rest).2.2 :=
        ih (Nat.lt_of_succ_lt_succ within)
      rw [member.2.now_start, Nat.add_right_comm] at later
      exact List.mem_cons_of_mem _ (List.mem_append_right _ later)

/-- A member that ends in the turn in which it is dispatched settles at once. -/
theorem mem_dispatchAll_settled {members : List (Step × Process)} {environment : Environment}
    {position place : Nat} {step : Step} {outcome : Outcome}
    (ended : (dispatchAll environment position members).2.1[place]? = some (step, .ended outcome)) :
    ⟨environment.now, .settled (position + place) outcome⟩ ∈
      (dispatchAll environment position members).2.2 := by
  induction members generalizing environment position place with
  | nil => cases ended
  | cons member rest ih =>
    cases place with
    | zero =>
      rw [dispatchAll, List.getElem?_cons_zero, Option.some.injEq, Prod.mk.injEq] at ended
      rw [dispatchAll, ended.2, member.2.now_start]
      exact List.mem_cons_of_mem _ (List.mem_append_left _ (List.mem_singleton.mpr rfl))
    | succ place =>
      have later : ⟨(member.2.start environment).1.now,
          .settled (position + 1 + place) outcome⟩ ∈
            (dispatchAll (member.2.start environment).1 (position + 1) rest).2.2 := ih ended
      rw [member.2.now_start, Nat.add_right_comm] at later
      exact List.mem_cons_of_mem _ (List.mem_append_right _ later)

/-- What was busy before has settled in this turn if it has settled. -/
theorem newSettlement_of_busy {before : Activity} (busy : before.outcome? = none)
    (time position : Nat) (after : Activity) :
    newSettlement time position before after = settlement time position after := by
  cases before with
  | ended outcome => cases busy
  | calling | seated | awaiting | together => rfl

/-- If the last members of a batch end in a turn, one of them settles in it. -/
theorem exists_settled_attendAll {batch : List (Step × Activity)} {environment : Environment}
    {position : Nat} (waits : ∃ member ∈ batch, member.2.outcome? = none)
    (finished : ∀ member ∈ (attendAll environment position batch).2.1,
      ∃ outcome, member.2 = .ended outcome) :
    ∃ place < batch.length, ∃ outcome,
      ⟨environment.now, .settled (position + place) outcome⟩ ∈
        (attendAll environment position batch).2.2 := by
  induction batch generalizing environment position with
  | nil =>
    obtain ⟨_, impossible, -⟩ := waits
    cases impossible
  | cons member rest ih =>
    obtain ⟨step, activity⟩ := member
    obtain ⟨ended, others⟩ := List.forall_mem_cons.mp finished
    have now := activity.now_resume environment
    by_cases here : activity.outcome? = none
    · obtain ⟨outcome, same⟩ := ended
      refine ⟨0, Nat.zero_lt_succ _, outcome, List.mem_append_left _ ?_⟩
      rw [newSettlement_of_busy here, same, now]
      exact List.mem_singleton.mpr rfl
    · obtain ⟨member, inside, unfinished⟩ := waits
      have inRest : member ∈ rest := by
        rcases List.mem_cons.mp inside with rfl | later
        · exact absurd unfinished here
        · exact later
      obtain ⟨place, within, outcome, settled⟩ := ih ⟨member, inRest, unfinished⟩ others
      rw [now, Nat.add_right_comm] at settled
      exact ⟨place + 1, Nat.succ_lt_succ within, outcome, List.mem_append_right _ settled⟩

/-- Some member of a batch that has not ended has not ended. -/
theorem exists_busy {batch : List (Step × Activity)} (waits : ended? batch = none) :
    ∃ member ∈ batch, member.2.outcome? = none := by
  have unfinished : Activity.outcomes? (batch.map Prod.snd) = none :=
    Option.map_eq_none_iff.mp waits
  clear waits
  induction batch with
  | nil => cases unfinished
  | cons member rest ih =>
    obtain ⟨step, activity⟩ := member
    cases activity with
    | ended outcome =>
      rw [List.map_cons, Activity.outcomes?, Option.map_eq_none_iff] at unfinished
      obtain ⟨member, inside, busy⟩ := ih unfinished
      exact ⟨member, List.mem_cons_of_mem _ inside, busy⟩
    | calling | seated | awaiting | together => exact ⟨_, List.mem_cons_self, rfl⟩

/-! ## Logs only grow -/

namespace Roster

variable {group : String}

/-- To advance continues the log. -/
theorem log_advance (environment : Environment) (past : List (Step × Outcome))
    (log : List LogEntry) (later : List (List (Step × Process))) :
    log <+: (advance group environment past log later).2.log := by
  induction later generalizing environment past log with
  | nil => exact List.prefix_refl log
  | cons batch later ih =>
    rw [advance]
    split
    · exact (List.prefix_append log _).trans (ih _ _ _)
    · exact List.prefix_append log _

/-- To go on continues the log. -/
theorem log_goOn (roster : Roster) (environment : Environment) :
    roster.log <+: (roster.goOn group environment).2.log := by
  rw [goOn]
  split
  · exact (List.prefix_append roster.log _).trans (log_advance _ _ _ _)
  · exact List.prefix_append roster.log _

end Roster

/-- The log of a later turn continues that of an earlier one. -/
theorem Step.log_watch {setup : Setup} {context : Context} (group : Step)
    (moment : Nat → Environment) {turn later : Nat} (after : turn ≤ later) :
    (group.watch setup context moment turn).2.log <+:
      (group.watch setup context moment later).2.log := by
  induction after with
  | refl => exact List.prefix_refl _
  | step _ ih => exact ih.trans (Roster.log_goOn _ _)

/-! ## Batches in time -/

/-- Every member that settles does so a fixed time after it was dispatched. -/
def Takes (duration : Nat → Nat) (log : List LogEntry) : Prop :=
  ∀ position dispatchedAt settledAt outcome, ⟨dispatchedAt, .dispatched position⟩ ∈ log →
    ⟨settledAt, .settled position outcome⟩ ∈ log → settledAt = dispatchedAt + duration position

/-- What takes its time in a log does so in what the log begins with. -/
theorem Takes.before {duration : Nat → Nat} {log later : List LogEntry}
    (takes : Takes duration later) (grows : log <+: later) : Takes duration log :=
  fun position dispatchedAt settledAt outcome dispatched settled =>
    takes position dispatchedAt settledAt outcome (grows.subset dispatched) (grows.subset settled)

/-- A group is as far as the time allows: nothing was noted later than now, and the batch that runs
began when those before it were over. -/
structure Roster.Timed (duration : Nat → Nat) (width origin now : Nat) (roster : Roster) :
    Prop where
  stamps : ∀ entry ∈ roster.log, entry.time ≤ now
  begun : ∀ place < roster.batch.length,
    ⟨origin + elapsed duration width roster.past.length,
      .dispatched (roster.past.length + place)⟩ ∈ roster.log

namespace Roster

variable {group : String} {size origin : Nat} {duration : Nat → Nat}

/-- The members of a batch keep their places when they are started. -/
theorem length_dispatchAll (environment : Environment) (position : Nat)
    (batch : List (Step × Process)) :
    (dispatchAll environment position batch).2.1.length = batch.length := by
  rw [← List.length_map Prod.fst, (dispatchAll_eq environment position batch).2.1, List.length_map]

/-- The members of a batch keep their places when they go on. -/
theorem length_attendAll (environment : Environment) (position : Nat)
    (batch : List (Step × Activity)) :
    (attendAll environment position batch).2.1.length = batch.length := by
  rw [← List.length_map Prod.fst, (attendAll_eq environment position batch).2.1, List.length_map]

/-- A batch that ends in the turn in which it is started takes no time. -/
theorem now_dispatchAll {batch : List (Step × Process)} {environment : Environment} {position : Nat}
    {log : List LogEntry} {ended : List (Step × Outcome)} (filled : batch ≠ [])
    (found : ended? (dispatchAll environment position batch).2.1 = some ended)
    (takes : Takes duration (log ++ (dispatchAll environment position batch).2.2)) :
    environment.now =
      environment.now + (Finset.Ico position (position + batch.length)).sup duration := by
  have all := eq_of_ended? found
  have length : ended.length = batch.length := by
    rw [← length_dispatchAll environment position, all, List.length_map]
  have atOnce (place : Nat) (within : place < batch.length) :
      environment.now + duration (position + place) = environment.now := by
    have here : (dispatchAll environment position batch).2.1[place]? =
        some (ended[place].1, .ended ended[place].2) := by
      simp [all, length ▸ within]
    exact (takes _ _ _ _ (List.mem_append_right log (mem_dispatchAll within))
      (List.mem_append_right log (mem_dispatchAll_settled here))).symm
  have nonempty : 0 < batch.length := List.length_pos_iff.mpr filled
  exact eq_add_sup (fun place within => (atOnce place within).le) ⟨0, nonempty, atOnce 0 nonempty⟩

/-- Batches that are started are as far as the time allows, if those before them are over just now.
-/
theorem advance_timed {waiting : List (Step × Process)} {past : List (Step × Outcome)}
    {log : List LogEntry} {environment : Environment}
    (whole : waiting ≠ [] → max size 1 ∣ past.length)
    (time : environment.now = origin + elapsed duration (max size 1) past.length)
    (stamps : ∀ entry ∈ log, entry.time ≤ environment.now)
    (takes : Takes duration (advance group environment past log (batches size waiting)).2.log) :
    let reached := (advance group environment past log (batches size waiting)).2
    reached.Timed duration (max size 1) origin environment.now ∧
      (reached.batch = [] →
        environment.now = origin + elapsed duration (max size 1) reached.past.length) := by
  generalize cut : batches size waiting = later at takes ⊢
  induction later generalizing waiting past log environment with
  | nil =>
    exact ⟨⟨stamps, fun _ impossible => absurd impossible (Nat.not_lt_zero _)⟩, fun _ => time⟩
  | cons batch later ih =>
    obtain ⟨rest, rfl, rfl, filled, fits, full⟩ := batches_eq_cons cut
    have divides := whole (by simp [filled])
    obtain ⟨left, times⟩ := dispatchAll_times batch environment past.length
    have length := length_dispatchAll environment past.length batch
    have noted : ∀ entry ∈ log ++ (dispatchAll environment past.length batch).2.2,
        entry.time ≤ environment.now :=
      List.forall_mem_append.mpr ⟨stamps, fun entry member => (times entry member).le⟩
    rw [advance] at takes ⊢
    cases found : ended? (dispatchAll environment past.length batch).2.1 with
    | none =>
      simp only [found] at takes ⊢
      refine ⟨⟨noted, fun place within => ?_⟩, fun none => ?_⟩
      · rw [← time]
        exact List.mem_append_right _ (mem_dispatchAll (length ▸ within))
      · exact absurd none (by simpa [none] using isEmpty_of_waiting found)
    | some ended =>
      simp only [found] at takes ⊢
      have all := eq_of_ended? found
      have more : ended.length = batch.length := by rw [← length, all, List.length_map]
      have nonempty : 0 < batch.length := List.length_pos_iff.mpr filled
      have batchTime := now_dispatchAll filled found (takes.before (log_advance _ _ _ _))
      have same : ((dispatchAll environment past.length batch).1.warnEnded group ended).now =
          environment.now := by rw [Environment.now_warnEnded, left]
      have sum := elapsed_add duration divides nonempty fits
      rw [← same]
      refine ih (fun remains => ?_) ?_ ?_ rfl takes
      · rw [List.length_append, more, full remains]
        exact Nat.dvd_add divides (Nat.dvd_refl _)
      · rw [same, List.length_append, more, sum]
        omega
      · rwa [same]

/-- A group that is over is as far as the time allows at every later time. -/
theorem goOn_over {roster : Roster} (none : roster.batch = []) (settled : roster.Settled)
    (environment : Environment) : roster.goOn group environment = (environment, roster) := by
  obtain ⟨past, batch, later, log⟩ := roster
  obtain rfl : batch = [] := none
  obtain rfl : later = [] := settled rfl
  simp [goOn, attendAll, ended?, Activity.outcomes?, advance, Environment.warnEnded]

/-- A batch that ends in a turn has had the time of its slowest member. -/
theorem now_attendAll {before running waiting : List (Step × Process)} {roster : Roster}
    {environment : Environment} {count now : Nat} {ended : List (Step × Outcome)}
    (stands : roster.Stands size count before running waiting) (filled : running ≠ [])
    (timed : roster.Timed duration (max size 1) origin now) (onward : now ≤ environment.now)
    (found : ended? (attendAll environment roster.past.length roster.batch).2.1 = some ended)
    (takes : Takes duration
      (roster.log ++ (attendAll environment roster.past.length roster.batch).2.2)) :
    environment.now = origin + elapsed duration (max size 1) roster.past.length +
      (Finset.Ico roster.past.length (roster.past.length + roster.batch.length)).sup duration := by
  have all := eq_of_ended? found
  have length : ended.length = roster.batch.length := by
    rw [← length_attendAll environment roster.past.length, all, List.length_map]
  have attended := stands.tallied.attendAll roster.batch environment
  rw [List.length_map] at attended
  have times := (attendAll_times roster.batch environment roster.past.length).2
  have begun (place : Nat) (within : place < roster.batch.length) :=
    List.mem_append_left (attendAll environment roster.past.length roster.batch).2.2
      (timed.begun place within)
  -- A member settles when its time is over, and that is noted by now.
  have each (place : Nat) (within : place < roster.batch.length) :
      origin + elapsed duration (max size 1) roster.past.length +
        duration (roster.past.length + place) ≤ environment.now := by
    have told : (roster.past.map (some ·.2) ++ (attendAll environment roster.past.length
        roster.batch).2.1.map (·.2.outcome?))[roster.past.length + place]? =
          some (some ended[place].2) := by
      simp [all, length ▸ within, Activity.outcome?]
    obtain ⟨time, settled⟩ := mem_settlements.mp ((attended.settlements _ _).mpr told)
    have due := takes _ _ _ _ (begun place within) settled
    rcases List.mem_append.mp settled with earlier | now
    · exact due ▸ (timed.stamps _ earlier).trans onward
    · exact due ▸ (times _ now).le
  have last : ∃ place < roster.batch.length,
      origin + elapsed duration (max size 1) roster.past.length +
        duration (roster.past.length + place) = environment.now := by
    obtain ⟨place, within, outcome, settled⟩ :=
      exists_settled_attendAll (exists_busy (stands.waits filled)) fun member inside => by
        rw [all, List.mem_map] at inside
        obtain ⟨entry, -, rfl⟩ := inside
        exact ⟨entry.2, rfl⟩
    exact ⟨place, within,
      (takes _ _ _ _ (begun place within) (List.mem_append_right _ settled)).symm⟩
  exact eq_add_sup each last

/-- A group that goes on is as far as the time allows. -/
theorem goOn_timed {before running waiting : List (Step × Process)} {roster : Roster}
    {environment : Environment} {count now : Nat}
    (stands : roster.Stands size count before running waiting) (settled : roster.Settled)
    (timed : roster.Timed duration (max size 1) origin now) (onward : now ≤ environment.now)
    (takes : Takes duration (roster.goOn group environment).2.log) :
    let reached := (roster.goOn group environment).2
    reached.Timed duration (max size 1) origin environment.now ∧
      (roster.batch ≠ [] → reached.batch = [] →
        environment.now = origin + elapsed duration (max size 1) reached.past.length) := by
  by_cases none : roster.batch = []
  · rw [goOn_over none settled]
    exact ⟨⟨fun entry member => (timed.stamps entry member).trans onward, timed.begun⟩,
      fun running => absurd none running⟩
  have filled : running ≠ [] := by
    rintro rfl
    exact none (List.forall₂_nil_left_iff.mp stands.batch)
  have divides := stands.whole filled
  have length : before.length = roster.past.length := stands.past.length_eq
  have size' : running.length = roster.batch.length := stands.batch.length_eq
  obtain ⟨left, times⟩ := attendAll_times roster.batch environment roster.past.length
  have same := length_attendAll environment roster.past.length roster.batch
  have noted : ∀ entry ∈ roster.log ++
      (attendAll environment roster.past.length roster.batch).2.2,
      entry.time ≤ environment.now :=
    List.forall_mem_append.mpr ⟨fun entry member => (timed.stamps entry member).trans onward,
      fun entry member => (times entry member).le⟩
  rw [goOn] at takes ⊢
  cases found : ended? (attendAll environment roster.past.length roster.batch).2.1 with
  | none =>
    simp only [found] at takes ⊢
    refine ⟨⟨noted, fun place within => ?_⟩, fun _ finished => ?_⟩
    · exact List.mem_append_left _ (timed.begun place (same ▸ within))
    · exact absurd finished (by simpa [finished] using isEmpty_of_waiting found)
  | some ended =>
    simp only [found] at takes ⊢
    have all := eq_of_ended? found
    have more : ended.length = roster.batch.length := by rw [← same, all, List.length_map]
    have batchTime :=
      now_attendAll stands filled timed onward found (takes.before (log_advance _ _ _ _))
    have sum := elapsed_add duration (length ▸ divides) (List.length_pos_iff.mpr none)
      (size' ▸ stands.fits)
    have unchanged : ((attendAll environment roster.past.length roster.batch).1.warnEnded group
        ended).now = environment.now := by rw [Environment.now_warnEnded, left]
    rw [stands.later] at takes ⊢
    rw [← unchanged]
    refine And.imp_right (fun finished _ => finished)
      (advance_timed (fun remains => ?_) ?_ ?_ takes)
    · rw [List.length_append, more, ← size', stands.full remains, ← length]
      exact Nat.dvd_add divides (Nat.dvd_refl _)
    · rw [unchanged, List.length_append, more, sum]
      omega
    · rwa [unchanged]

end Roster

end Workflow
