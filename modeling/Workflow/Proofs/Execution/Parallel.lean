import Workflow.Proofs.Execution.Batches
import Workflow.Proofs.Execution.Handouts
import Workflow.Proofs.Execution.Timetable

/-!
# The course of a group

`Step.Follows` collects what is known of a group whose members run in batches, in every environment
and for every order in which its members end. Each member is dispatched once, in the order in which
the members are declared; it is dispatched whatever has become of the others, as soon as the batches
before its own are over; no more members are in flight than a batch holds; and a member comes to
what its own process comes to, which was made in the context of the group before any member was
started. The group ends if each member that is dispatched settles, and it takes the sum over its
batches of the time of the slowest member.
-/
namespace Workflow

/-- The log of a group that is watched, in a turn. -/
def Step.log (setup : Setup) (context : Context) (group : Step) (moment : Nat → Environment)
    (turn : Nat) : List LogEntry :=
  (group.watch setup context moment turn).2.log

/-- What has become of a group in a turn. -/
def Step.activityAt (setup : Setup) (context : Context) (group : Step)
    (moment : Nat → Environment) (turn : Nat) : Activity :=
  ((group.process setup context).turn moment turn).2

/-- How a group runs whose members are executed in batches, in given environments. -/
structure Step.Follows (setup : Setup) (context : Context) (group : Step)
    (moment : Nat → Environment) : Prop where
  /-- What is watched is what happens. -/
  shown : ∀ turn, (group.process setup context).turn moment turn =
    let watched := group.watch setup context moment turn
    (watched.1, watched.2.activity group.name)
  /-- What has been noted stays. -/
  grows : ∀ turn, group.log setup context moment turn <+: group.log setup context moment (turn + 1)
  /-- The members are dispatched once and in order, in batches that do not overlap. -/
  scheduled : ∀ turn, Scheduled (max setup.maxParallelSteps 1) group.steps.length
    (group.log setup context moment turn)
  /-- A member that is in flight is among those of the batch that runs, whatever has become of the
  others, and goes on with its own process, made in the context of the group. -/
  running : ∀ turn, ∀ position ∈ inFlight (group.log setup context moment turn),
    ∃ place step activity,
      position = (group.watch setup context moment turn).2.past.length + place ∧
      (group.watch setup context moment turn).2.batch[place]? = some (step, activity) ∧
      (∀ outcome, activity ≠ .ended outcome) ∧ group.steps[position]? = some step ∧
      (step.process setup context).ComesTo activity
  /-- A member settles with what its own process has come to. -/
  own : ∀ turn time position outcome,
    ⟨time, .settled position outcome⟩ ∈ group.log setup context moment turn →
      ∃ step, group.steps[position]? = some step ∧
        (step.process setup context).ComesTo (.ended outcome)
  /-- Whatever the process of a member hands out has been judged and resolved in the context of the
  group. -/
  isolated : setup.custom = [] → ∀ step ∈ group.steps,
    (step.process setup context).Hands (HandedBy context [step]) 0
  /-- As long as the group has not ended, some member is in flight. -/
  waits : ∀ turn, (∀ outcome, group.activityAt setup context moment turn ≠ .ended outcome) →
    inFlight (group.log setup context moment turn) ≠ []
  /-- When the group has ended, every member has been dispatched and has settled. -/
  complete : ∀ turn outcome, group.activityAt setup context moment turn = .ended outcome →
    dispatches (group.log setup context moment turn) = List.range group.steps.length ∧
      ∃ outcomes : List Outcome, outcomes.length = group.steps.length ∧
        (∀ position result, (position, result) ∈
          settlements (group.log setup context moment turn) ↔ outcomes[position]? = some result) ∧
        outcome = .ok (some (groupOutput (group.steps.zip outcomes)))
  /-- The group ends if each member that is dispatched settles. -/
  ends : (∀ turn, ∀ position ∈ dispatches (group.log setup context moment turn),
      ∃ later, HasSettled (group.log setup context moment later) position) →
    ∃ turn outcome, group.activityAt setup context moment turn = .ended outcome
  /-- If each member takes a time of its own, the group takes the sum over the batches of the time
  of the slowest member. -/
  punctual : ∀ duration : Nat → Nat,
    (∀ turn, (moment turn).now ≤ (moment (turn + 1)).now) →
    (∀ turn time position,
      ⟨time, .dispatched position⟩ ∈ group.log setup context moment turn →
        ∃ later outcome, ⟨time + duration position, .settled position outcome⟩ ∈
          group.log setup context moment later) →
    ∃ turn outcome, group.activityAt setup context moment turn = .ended outcome ∧
      (∀ earlier < turn, ∀ other,
        group.activityAt setup context moment earlier ≠ .ended other) ∧
      (moment turn).now = (moment 0).now +
        elapsed duration (max setup.maxParallelSteps 1) group.steps.length

/-! ## Members at their positions -/

/-- What is at a place of one of two related lists is related to what is there in the other. -/
theorem forall₂_getElem? {A B : Type} {related : A → B → Prop} {first : List A} {second : List B}
    (each : List.Forall₂ related first second) {place : Nat} {right : B}
    (found : second[place]? = some right) :
    ∃ left, first[place]? = some left ∧ related left right := by
  induction each generalizing place with
  | nil => cases found
  | @cons left other _ _ here _ ih =>
    cases place with
    | zero =>
      cases found
      exact ⟨left, rfl, here⟩
    | succ place => exact ih found

namespace Roster

variable {size : Nat} {members : List (Step × Process)} {roster : Roster}

/-- A member of the batch that runs stands at its position. -/
theorem Conforms.running (conforms : roster.Conforms size members) {place : Nat} {step : Step}
    {activity : Activity} (found : roster.batch[place]? = some (step, activity)) :
    ∃ process, members[roster.past.length + place]? = some (step, process) ∧
      process.ComesTo activity := by
  obtain ⟨before, running, waiting, rfl, stands⟩ := conforms
  obtain ⟨⟨name, process⟩, here, rfl, comes⟩ := forall₂_getElem? stands.batch found
  refine ⟨process, ?_, comes⟩
  have within : place < running.length := (List.getElem?_eq_some_iff.mp here).1
  rw [← stands.past.length_eq, List.append_assoc, List.getElem?_append_right (by omega),
    Nat.add_sub_cancel_left, List.getElem?_append_left within, here]

/-- A member that has settled stands at its position. -/
theorem Conforms.settled (conforms : roster.Conforms size members) {position : Nat}
    {outcome : Outcome} (noted : (position, outcome) ∈ settlements roster.log) :
    ∃ member, members[position]? = some member ∧ member.2.ComesTo (.ended outcome) := by
  obtain ⟨before, running, waiting, whole, stands⟩ := id conforms
  have told := (stands.tallied.settlements position outcome).mp noted
  rw [tally, List.getElem?_append, List.length_map] at told
  by_cases finished : position < roster.past.length
  · rw [if_pos finished, List.getElem?_map, Option.map_eq_some_iff] at told
    obtain ⟨entry, found, same⟩ := told
    obtain ⟨member, here, -, comes⟩ := forall₂_getElem? stands.past found
    have within : position < before.length := by rwa [stands.past.length_eq]
    refine ⟨member, ?_, Option.some.inj same ▸ comes⟩
    rw [whole, List.append_assoc, List.getElem?_append_left within, here]
  · rw [if_neg finished, List.getElem?_map, Option.map_eq_some_iff] at told
    obtain ⟨⟨step, activity⟩, found, ended⟩ := told
    obtain ⟨process, here, comes⟩ := conforms.running found
    have same : activity = .ended outcome := by
      cases activity with
      | ended other =>
        cases ended
        rfl
      | calling | seated | awaiting | together => cases ended
    rw [Nat.add_sub_cancel' (Nat.le_of_not_lt finished)] at here
    exact ⟨(step, process), here, same ▸ comes⟩

/-- A member that is in flight is among those of the batch that runs, and has not ended. -/
theorem Conforms.busy (conforms : roster.Conforms size members) {position : Nat}
    (flies : position ∈ inFlight roster.log) :
    ∃ place step activity, position = roster.past.length + place ∧
      roster.batch[place]? = some (step, activity) ∧ activity.outcome? = none := by
  obtain ⟨_, _, _, -, stands⟩ := conforms
  obtain ⟨dispatched, unsettled⟩ := List.mem_filter.mp flies
  rw [stands.tallied.dispatches, List.mem_range] at dispatched
  rw [decide_eq_true_eq, stands.tallied.hasSettled_iff, not_exists] at unsettled
  obtain ⟨told, found⟩ : ∃ told, roster.tally[position]? = some told :=
    ⟨_, List.getElem?_eq_getElem dispatched⟩
  have unfinished : told = none := by
    cases told with
    | none => rfl
    | some outcome => exact absurd found (unsettled outcome)
  rw [unfinished, tally, List.getElem?_append, List.length_map] at found
  by_cases finished : position < roster.past.length
  · rw [if_pos finished, List.getElem?_map, Option.map_eq_some_iff] at found
    obtain ⟨_, _, impossible⟩ := found
    cases impossible
  · rw [if_neg finished, List.getElem?_map, Option.map_eq_some_iff] at found
    obtain ⟨⟨step, activity⟩, here, busy⟩ := found
    exact ⟨_, step, activity, (Nat.add_sub_cancel' (Nat.le_of_not_lt finished)).symm, here, busy⟩

/-- As long as a batch runs, some member is in flight. -/
theorem Conforms.inFlight_ne_nil (conforms : roster.Conforms size members)
    (runs : roster.batch ≠ []) : inFlight roster.log ≠ [] := by
  obtain ⟨before, running, waiting, rfl, stands⟩ := conforms
  have filled : running ≠ [] := by
    rintro rfl
    exact runs (List.forall₂_nil_left_iff.mp stands.batch)
  obtain ⟨member, inside, busy⟩ := exists_busy (stands.waits filled)
  obtain ⟨place, within, rfl⟩ := List.getElem_of_mem inside
  have told : roster.tally[roster.past.length + place]? = some none := by
    simp [tally, within, busy]
  have dispatched : roster.past.length + place ∈ dispatches roster.log := by
    rw [stands.tallied.dispatches, List.mem_range]
    exact (List.getElem?_eq_some_iff.mp told).1
  have unsettled : ¬HasSettled roster.log (roster.past.length + place) := by
    rw [stands.tallied.hasSettled_iff, told]
    simp
  exact List.ne_nil_of_mem (List.mem_filter.mpr ⟨dispatched, by simpa using unsettled⟩)

/-- When no batch runs, all members are over. -/
theorem Conforms.complete (conforms : roster.Conforms size members) (finished : roster.batch = []) :
    List.Forall₂ EndedAs members roster.past ∧
      Tallied (max size 1) members.length (roster.past.map (some ·.2)) roster.log := by
  obtain ⟨before, running, waiting, rfl, stands⟩ := conforms
  have none : running = [] := by
    have batch := stands.batch
    rw [finished] at batch
    exact List.forall₂_nil_right_iff.mp batch
  subst none
  have last : waiting = [] := by
    by_contra remains
    have full := stands.full remains
    rw [List.length_nil] at full
    omega
  subst last
  exact ⟨by simpa using stands.past, by simpa [tally, finished] using stands.tallied⟩

/-- A roster has been kept in an orderly way. -/
theorem Conforms.orderly (conforms : roster.Conforms size members) :
    Orderly (max size 1) members.length roster.log := by
  obtain ⟨_, _, _, -, stands⟩ := conforms
  exact stands.tallied.orderly

/-- The steps that have ended are the members of the batch. -/
theorem map_fst_of_endedAs {past : List (Step × Outcome)}
    (ended : List.Forall₂ EndedAs members past) : past.map Prod.fst = members.map Prod.fst := by
  induction ended with
  | nil => rfl
  | cons first _ ih => rw [List.map_cons, List.map_cons, first.1, ih]

/-- A group has ended when no batch runs. -/
theorem activity_eq_ended {group : String} {outcome : Outcome} :
    roster.activity group = .ended outcome ↔
      roster.batch = [] ∧ outcome = .ok (some (groupOutput roster.past)) := by
  rw [activity]
  cases roster.batch with
  | nil => simp [eq_comm]
  | cons member rest => simp

end Roster

/-! ## Entries at their times -/

/-- What has settled stays so as the log grows. -/
theorem HasSettled.later {log later : List LogEntry} {position : Nat}
    (settled : HasSettled log position) (grows : log <+: later) : HasSettled later position := by
  obtain ⟨others, rfl⟩ := grows
  rw [HasSettled, settlements_append, List.map_append]
  exact List.mem_append_left _ settled

/-- A member that settles once settles at one time. -/
theorem settled_time_unique {log : List LogEntry} (once : ((settlements log).map Prod.fst).Nodup)
    {position first second : Nat} {outcome other : Outcome}
    (here : ⟨first, .settled position outcome⟩ ∈ log)
    (there : ⟨second, .settled position other⟩ ∈ log) : first = second := by
  induction log with
  | nil => cases here
  | cons entry rest ih =>
    obtain ⟨time, event⟩ := entry
    cases event with
    | dispatched place =>
      rw [List.mem_cons] at here there
      exact ih once (here.resolve_left (by simp)) (there.resolve_left (by simp))
    | settled place result =>
      rw [settlements_settled, List.map_cons, List.nodup_cons] at once
      have fresh {moment : Nat} {last : Outcome} :
          ⟨moment, .settled place last⟩ ∉ rest := fun later =>
        once.1 (List.mem_map.mpr ⟨(place, last), mem_settlements.mpr ⟨moment, later⟩, rfl⟩)
      rcases List.mem_cons.mp here with same | inRest <;>
        rcases List.mem_cons.mp there with same' | inRest'
      · cases same
        cases same'
        rfl
      · cases same
        exact absurd inRest' fresh
      · cases same'
        exact absurd inRest fresh
      · exact ih once.2 inRest inRest'

/-! ## Whole courses -/

namespace Step

variable {setup : Setup} {context : Context} {group : Step} {moment : Nat → Environment}

/-- The log of a later turn continues that of an earlier one. -/
theorem log_grows {turn later : Nat} (after : turn ≤ later) :
    group.log setup context moment turn <+: group.log setup context moment later :=
  group.log_watch moment after

/-- The log of a group is orderly after every turn. -/
theorem log_orderly (turn : Nat) : Orderly (max setup.maxParallelSteps 1) group.steps.length
    (group.log setup context moment turn) := by
  have orderly := (group.watch_conforms setup context moment turn).orderly
  rwa [List.length_map] at orderly

/-- The log of a group is scheduled after every turn. -/
theorem log_scheduled (turn : Nat) : Scheduled (max setup.maxParallelSteps 1) group.steps.length
    (group.log setup context moment turn) :=
  (log_orderly turn).scheduled (Nat.lt_of_lt_of_le Nat.zero_lt_one (Nat.le_max_right _ _))

variable (setup context group moment) in
/-- There is a turn by which each of the first members has settled that ever settles. -/
theorem exists_horizon (count : Nat) : ∃ turn, ∀ position < count, ∀ later,
    HasSettled (group.log setup context moment later) position →
      HasSettled (group.log setup context moment turn) position := by
  induction count with
  | zero => exact ⟨0, fun _ impossible => absurd impossible (Nat.not_lt_zero _)⟩
  | succ count ih =>
    obtain ⟨turn, known⟩ := ih
    by_cases ever : ∃ later, HasSettled (group.log setup context moment later) count
    · obtain ⟨last, settled⟩ := ever
      refine ⟨max turn last, fun position among later found => ?_⟩
      rcases Nat.lt_succ_iff_lt_or_eq.mp among with earlier | rfl
      · exact (known position earlier later found).later (log_grows (Nat.le_max_left _ _))
      · exact settled.later (log_grows (Nat.le_max_right _ _))
    · refine ⟨turn, fun position among later found => ?_⟩
      rcases Nat.lt_succ_iff_lt_or_eq.mp among with earlier | rfl
      · exact known position earlier later found
      · exact absurd ⟨later, found⟩ ever

/-- A group is over at some time if each member that is dispatched settles at some time. -/
theorem exists_over (each : ∀ turn, ∀ position ∈ dispatches (group.log setup context moment turn),
      ∃ later, HasSettled (group.log setup context moment later) position) :
    ∃ turn, (group.watch setup context moment turn).2.batch = [] := by
  by_contra never
  obtain ⟨turn, known⟩ := exists_horizon setup context group moment group.steps.length
  have busy : inFlight (group.log setup context moment turn) ≠ [] :=
    (group.watch_conforms setup context moment turn).inFlight_ne_nil fun finished =>
      never ⟨turn, finished⟩
  obtain ⟨position, running⟩ := List.exists_mem_of_ne_nil _ busy
  obtain ⟨dispatched, unsettled⟩ := List.mem_filter.mp running
  obtain ⟨begun, among, inOrder⟩ := (log_orderly turn).inOrder
  obtain ⟨later, settled⟩ := each turn position dispatched
  rw [inOrder, List.mem_range] at dispatched
  exact absurd (known position (dispatched.trans_le among) later settled) (by simpa using unsettled)

/-! ### Time -/

section

variable {duration : Nat → Nat}

/-- If each member that is dispatched settles when its time is over, then no member settles at
another time. -/
theorem log_takes
    (each : ∀ turn time position,
      ⟨time, .dispatched position⟩ ∈ group.log setup context moment turn →
        ∃ later outcome, ⟨time + duration position, .settled position outcome⟩ ∈
          group.log setup context moment later) (turn : Nat) :
    Takes duration (group.log setup context moment turn) := by
  intro position dispatchedAt settledAt outcome dispatched settled
  obtain ⟨later, other, due⟩ := each turn dispatchedAt position dispatched
  exact settled_time_unique (log_orderly (max turn later)).once
    ((log_grows (Nat.le_max_left turn later)).subset settled)
    ((log_grows (Nat.le_max_right turn later)).subset due)

/-- In every turn a group is as far as the time allows, and it is over in the turn in which the
batches have had their time. -/
theorem watch_timed (onward : ∀ turn, (moment turn).now ≤ (moment (turn + 1)).now)
    (takes : ∀ turn, Takes duration (group.log setup context moment turn)) (turn : Nat) :
    let roster := (group.watch setup context moment turn).2
    roster.Timed duration (max setup.maxParallelSteps 1) (moment 0).now (moment turn).now ∧
      ((∀ earlier < turn, (group.watch setup context moment earlier).2.batch ≠ []) →
        roster.batch = [] → (moment turn).now = (moment 0).now +
          elapsed duration (max setup.maxParallelSteps 1) roster.past.length) := by
  induction turn with
  | zero =>
    have heeded := (moment 0).now_heed (Condition.evaluate group.condition context)
    have origin : ((moment 0).heed (Condition.evaluate group.condition context)).now =
        (moment 0).now + elapsed duration (max setup.maxParallelSteps 1)
          ([] : List (Step × Outcome)).length := by
      simp [heeded, elapsed]
    obtain ⟨timed, finished⟩ := Roster.advance_timed (fun _ => Nat.dvd_zero _) origin
      (fun _ impossible => absurd impossible List.not_mem_nil) (takes 0)
    rw [heeded] at timed finished
    exact ⟨timed, fun _ => finished⟩
  | succ turn ih =>
    obtain ⟨_, _, _, -, stands⟩ := group.watch_conforms setup context moment turn
    obtain ⟨timed, finished⟩ := Roster.goOn_timed stands (group.watch_settled moment turn) ih.1
      (onward turn) (takes (turn + 1))
    exact ⟨timed, fun first => finished (first turn (Nat.lt_succ_self turn))⟩

end

/-! ### Groups that run -/

/-- A group that is over stays as it is. -/
theorem watch_over {turn later : Nat}
    (finished : (group.watch setup context moment turn).2.batch = []) (after : turn ≤ later) :
    (group.watch setup context moment later).2 = (group.watch setup context moment turn).2 := by
  induction after with
  | refl => rfl
  | @step later _ ih =>
    rw [Step.watch, Roster.goOn_over (ih ▸ finished) (group.watch_settled moment later), ih]

/-- When a group is over, each of its members has settled with an outcome. -/
theorem watch_complete {turn : Nat}
    (finished : (group.watch setup context moment turn).2.batch = []) :
    dispatches (group.log setup context moment turn) = List.range group.steps.length ∧
      ∃ outcomes : List Outcome, outcomes.length = group.steps.length ∧
        (∀ position result, (position, result) ∈
          settlements (group.log setup context moment turn) ↔ outcomes[position]? = some result) ∧
        (group.watch setup context moment turn).2.past = group.steps.zip outcomes := by
  obtain ⟨ended, tallied⟩ := (group.watch_conforms setup context moment turn).complete finished
  have length := ended.length_eq
  rw [List.length_map] at length
  have steps := Roster.map_fst_of_endedAs ended
  rw [List.map_map, Function.comp_def, List.map_id'] at steps
  refine ⟨?_, (group.watch setup context moment turn).2.past.map Prod.snd, ?_, ?_, ?_⟩
  · rw [Step.log, tallied.dispatches, List.length_map, length]
  · rw [List.length_map, length]
  · intro position result
    rw [Step.log, tallied.settlements]
    simp [List.getElem?_map]
  · rw [← steps, List.zip_map']
    simp

/-- A member of a group is a step with its own process. -/
theorem getElem?_members {position : Nat} {step : Step} {process : Process}
    (found : (group.steps.map fun step => (step, step.process setup context))[position]? =
      some (step, process)) :
    group.steps[position]? = some step ∧ process = step.process setup context := by
  rw [List.getElem?_map, Option.map_eq_some_iff] at found
  obtain ⟨_, found, same⟩ := found
  cases same
  exact ⟨found, rfl⟩

/-- A member that is in flight goes on with its own process. -/
theorem watch_running {turn position : Nat}
    (flies : position ∈ inFlight (group.log setup context moment turn)) :
    ∃ place step activity,
      position = (group.watch setup context moment turn).2.past.length + place ∧
      (group.watch setup context moment turn).2.batch[place]? = some (step, activity) ∧
      (∀ outcome, activity ≠ .ended outcome) ∧ group.steps[position]? = some step ∧
      (step.process setup context).ComesTo activity := by
  have conforms := group.watch_conforms setup context moment turn
  obtain ⟨place, step, activity, rfl, found, busy⟩ := conforms.busy flies
  obtain ⟨process, here, comes⟩ := conforms.running found
  obtain ⟨listed, rfl⟩ := getElem?_members here
  refine ⟨place, step, activity, rfl, found, ?_, listed, comes⟩
  rintro outcome rfl
  cases busy

/-- A member settles with what its own process has come to. -/
theorem settles_own {turn time position : Nat} {outcome : Outcome}
    (noted : ⟨time, .settled position outcome⟩ ∈ group.log setup context moment turn) :
    ∃ step, group.steps[position]? = some step ∧
      (step.process setup context).ComesTo (.ended outcome) := by
  obtain ⟨⟨step, process⟩, here, comes⟩ :=
    (group.watch_conforms setup context moment turn).settled (mem_settlements.mpr ⟨time, noted⟩)
  obtain ⟨listed, rfl⟩ := getElem?_members here
  exact ⟨step, listed, comes⟩

/-- A group is over when its batches have had their time, and not before. -/
theorem exists_over_in_time {duration : Nat → Nat}
    (onward : ∀ turn, (moment turn).now ≤ (moment (turn + 1)).now)
    (each : ∀ turn time position,
      ⟨time, .dispatched position⟩ ∈ group.log setup context moment turn →
        ∃ later outcome, ⟨time + duration position, .settled position outcome⟩ ∈
          group.log setup context moment later) :
    ∃ turn, (group.watch setup context moment turn).2.batch = [] ∧
      (∀ earlier < turn, (group.watch setup context moment earlier).2.batch ≠ []) ∧
      (moment turn).now = (moment 0).now +
        elapsed duration (max setup.maxParallelSteps 1) group.steps.length := by
  have finished : ∃ turn, (group.watch setup context moment turn).2.batch = [] := by
    refine exists_over fun turn position dispatched => ?_
    obtain ⟨time, noted⟩ := mem_dispatches.mp dispatched
    obtain ⟨later, outcome, settled⟩ := each turn time position noted
    exact ⟨later, List.mem_map.mpr ⟨_, mem_settlements.mpr ⟨_, settled⟩, rfl⟩⟩
  have last := Nat.find_spec finished
  have first (earlier : Nat) (sooner : earlier < Nat.find finished) := Nat.find_min finished sooner
  have time := (watch_timed onward (log_takes each) (Nat.find finished)).2 first last
  obtain ⟨-, outcomes, length, -, same⟩ := watch_complete last
  refine ⟨Nat.find finished, last, first, ?_⟩
  rw [time, same, List.length_zip, length, Nat.min_self]

/-- A group that runs follows the schedule of its batches, whenever it is given a turn and in
whatever order its members end. -/
theorem group_follows (parallel : group.kind = .parallel) (inhabited : group.steps ≠ [])
    (builtIn : setup.custom.find? (·.supports group) = none)
    (runs : (Condition.evaluate group.condition context).holds = true)
    (moment : Nat → Environment) : group.Follows setup context moment := by
  have shown := Step.turn_eq_watch parallel inhabited builtIn runs moment
  have ended (turn : Nat) (outcome : Outcome) :
      group.activityAt setup context moment turn = .ended outcome ↔
        (group.watch setup context moment turn).2.batch = [] ∧ outcome =
          .ok (some (groupOutput (group.watch setup context moment turn).2.past)) := by
    rw [Step.activityAt, shown turn]
    exact Roster.activity_eq_ended
  exact {
    shown := shown
    grows := fun turn => log_grows (Nat.le_succ turn)
    scheduled := log_scheduled
    running := fun _ _ flies => watch_running flies
    own := fun _ _ _ _ noted => settles_own noted
    isolated := fun custom step _ => step.process_hands custom context
    waits := fun turn unfinished =>
      (group.watch_conforms setup context moment turn).inFlight_ne_nil fun finished =>
        unfinished _ ((ended turn _).mpr ⟨finished, rfl⟩)
    complete := fun turn outcome found => by
      obtain ⟨finished, rfl⟩ := (ended turn outcome).mp found
      obtain ⟨dispatched, outcomes, length, settled, same⟩ := watch_complete finished
      exact ⟨dispatched, outcomes, length, settled, by rw [same]⟩
    ends := fun each => by
      obtain ⟨turn, finished⟩ := exists_over each
      exact ⟨turn, _, (ended turn _).mpr ⟨finished, rfl⟩⟩
    punctual := fun duration onward each => by
      obtain ⟨turn, finished, first, time⟩ := exists_over_in_time onward each
      exact ⟨turn, _, (ended turn _).mpr ⟨finished, rfl⟩, fun earlier sooner other found =>
        first earlier sooner ((ended earlier other).mp found).1, time⟩ }

/-! ### A group of which the second member ends first -/

/-- A member that waits, one whose condition does not hold, one whose action is not registered, and
another one that waits. -/
def staggered : Step where
  name := "staggered"
  kind := .parallel
  action := none
  input := none
  output := none
  condition := none
  timeout := none
  fallback := none
  loopOver := none
  steps := [
    plainCall "slow" "wait" (some (.record [("duration", .ofNat 6)])),
    { plainCall "idle" "echo" none with condition := some "$nothing" },
    plainCall "gone" "gone" none,
    plainCall "quick" "wait" (some (.record [("duration", .ofNat 4)]))]

/-- An engine with batches of two. -/
def inPairs : Setup := ⟨2, none, []⟩

/-- Environments in which actions are registered and two milliseconds pass between turns. -/
def ticking (turn : Nat) : Environment :=
  { Environment.idle with now := 2 * turn, actions := .builtIn }

/-- The times that the members take. -/
def staggeredTime (position : Nat) : Nat := [6, 0, 0, 4].getD position 0

/-- What happens in the group: the time, the member, and whether it settles. -/
def staggeredEvents (turn : Nat) : List (Nat × Nat × Bool) :=
  (staggered.log inPairs (.start "w" "run" .null) ticking turn).map fun entry =>
    match entry.event with
    | .dispatched position => (entry.time, position, false)
    | .settled position _ => (entry.time, position, true)

/-- The first member takes six milliseconds, the last one four, and the others take no time. -/
theorem staggered_punctual (turn time position : Nat)
    (noted : ⟨time, .dispatched position⟩ ∈
      staggered.log inPairs (.start "w" "run" .null) ticking turn) :
    ∃ later outcome, ⟨time + staggeredTime position, .settled position outcome⟩ ∈
      staggered.log inPairs (.start "w" "run" .null) ticking later := by
  have finished : (staggered.watch inPairs (.start "w" "run" .null) ticking 5).2.batch.isEmpty := by
    decide +kernel
  have due : ∀ event ∈ staggeredEvents 5, event.2.2 = false →
      (event.1 + staggeredTime event.2.1, event.2.1, true) ∈ staggeredEvents 5 := by
    decide +kernel
  have byThen : ⟨time, .dispatched position⟩ ∈
      staggered.log inPairs (.start "w" "run" .null) ticking 5 := by
    rcases Nat.le_total turn 5 with early | late
    · exact (log_grows early).subset noted
    · rwa [Step.log, watch_over (List.isEmpty_iff.mp finished) late] at noted
  obtain ⟨⟨settledAt, event⟩, inside, same⟩ := List.mem_map.mp
    (due (time, position, false) (List.mem_map.mpr ⟨_, byThen, rfl⟩) rfl)
  cases event with
  | dispatched other => cases same
  | settled other outcome =>
    cases same
    exact ⟨5, outcome, inside⟩

/-- Four members in batches of two follow the schedule: the second batch begins when the first one
has ended, and the group ends with it. -/
theorem group_follows_staggered :
    staggered.kind = .parallel ∧ staggered.steps ≠ [] ∧
    inPairs.custom.find? (·.supports staggered) = none ∧
    (Condition.evaluate staggered.condition (.start "w" "run" .null)).holds = true ∧
    staggered.Follows inPairs (.start "w" "run" .null) ticking ∧
    staggeredEvents 5 = [(0, 0, false), (0, 1, false), (0, 1, true), (6, 0, true),
      (6, 2, false), (6, 2, true), (6, 3, false), (10, 3, true)] ∧
    ∃ turn outcome, (ticking turn).now = 10 ∧
      staggered.activityAt inPairs (.start "w" "run" .null) ticking turn = .ended outcome := by
  have inhabited : staggered.steps ≠ [] := by simp [staggered]
  have follows : staggered.Follows inPairs (.start "w" "run" .null) ticking :=
    group_follows rfl inhabited rfl rfl ticking
  refine ⟨rfl, inhabited, rfl, rfl, follows, by decide +kernel, ?_⟩
  obtain ⟨turn, outcome, ended, -, time⟩ := follows.punctual staggeredTime
    (fun turn => Nat.mul_le_mul_left 2 (Nat.le_succ turn)) staggered_punctual
  have total : elapsed staggeredTime (max inPairs.maxParallelSteps 1) staggered.steps.length =
      10 := by decide
  exact ⟨turn, outcome, by rw [time, total]; rfl, ended⟩

end Step

end Workflow
