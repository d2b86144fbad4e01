import Workflow.Proofs.Execution.Endings
import Workflow.Proofs.Execution.Schedule

/-!
# Where the members of a group stand

At every time the members of a group fall into three parts: those of the batches that are over, each
of which has ended, those of the batch that runs, and those that have not been started. The log of
the group says the same: it tells who has been dispatched and who has settled with which outcome.
`Roster.Conforms` states this. It holds when a group has been started and is kept whenever the group
goes on, in whatever order its members end.
-/
namespace Workflow

/-! ## Batches -/

/-- The first batch of a list is full unless it holds the whole list. -/
theorem batches_eq_cons {Item : Type} {size : Nat} {items batch : List Item}
    {later : List (List Item)} (cut : batches size items = batch :: later) :
    ∃ rest, items = batch ++ rest ∧ later = batches size rest ∧ batch ≠ [] ∧
      batch.length ≤ max size 1 ∧ (rest ≠ [] → batch.length = max size 1) := by
  cases items with
  | nil =>
    rw [batches] at cut
    cases cut
  | cons item rest =>
    rw [batches] at cut
    cases cut
    have taken := List.length_take_le (size - 1) rest
    refine ⟨rest.drop (size - 1), ?_, rfl, List.cons_ne_nil _ _, ?_, fun remains => ?_⟩
    · rw [List.cons_append, List.take_append_drop]
    · rw [List.length_cons]
      omega
    · have longer : size - 1 < rest.length := by
        by_contra short
        exact remains (List.drop_of_length_le (Nat.le_of_not_lt short))
      rw [List.length_cons, List.length_take]
      omega

/-! ## What the log tells -/

/-- The outcome of an activity that has ended. -/
def Activity.outcome? : Activity → Option Outcome
  | .ended outcome => some outcome
  | _ => none

/-- The members that have been dispatched, in order, each with its outcome if it has settled. -/
def Roster.tally (roster : Roster) : List (Option Outcome) :=
  roster.past.map (some ·.2) ++ roster.batch.map (·.2.outcome?)

/-- A log has come about by orderly steps and tells which members have been dispatched and which of
them have settled. -/
structure Tallied (width count : Nat) (tally : List (Option Outcome)) (log : List LogEntry) :
    Prop where
  orderly : Orderly width count log
  dispatches : dispatches log = List.range tally.length
  settlements : ∀ position outcome,
    (position, outcome) ∈ settlements log ↔ tally[position]? = some (some outcome)

namespace Tallied

variable {width count : Nat} {tally before after : List (Option Outcome)} {log : List LogEntry}

/-- Nothing is tallied in an empty log. -/
theorem nothing : Tallied width count [] [] :=
  ⟨.nothing, rfl, fun _ _ => by simp⟩

/-- What has settled has its outcome in the tally. -/
theorem hasSettled_iff (tallied : Tallied width count tally log) (position : Nat) :
    HasSettled log position ↔ ∃ outcome, tally[position]? = some (some outcome) := by
  rw [HasSettled, List.mem_map]
  constructor
  · rintro ⟨⟨_, outcome⟩, member, rfl⟩
    exact ⟨outcome, (tallied.settlements _ _).mp member⟩
  · rintro ⟨outcome, found⟩
    exact ⟨(position, outcome), (tallied.settlements _ _).mpr found, rfl⟩

/-- The next member is dispatched when those of the batches before its own have settled. -/
theorem dispatch (tallied : Tallied width count tally log) (among : tally.length < count)
    (finished : ∀ earlier, earlier / width < tally.length / width →
      ∃ outcome, tally[earlier]? = some (some outcome)) (time : Nat) :
    Tallied width count (tally ++ [none]) (log ++ [⟨time, .dispatched tally.length⟩]) where
  orderly := .dispatch tallied.orderly tallied.dispatches among
    (fun earlier sooner => (tallied.hasSettled_iff earlier).mpr (finished earlier sooner)) time
  dispatches := by
    rw [dispatches_append, tallied.dispatches, List.length_append, List.length_singleton,
      List.range_succ]
    rfl
  settlements position outcome := by
    rw [settlements_append, settlements_dispatched, settlements_nil, List.append_nil,
      tallied.settlements, List.getElem?_append]
    by_cases known : position < tally.length
    · rw [if_pos known]
    · rw [if_neg known, List.getElem?_eq_none (Nat.le_of_not_lt known)]
      have fresh : [none][position - tally.length]? ≠ some (some outcome) := by
        cases position - tally.length <;> simp
      simpa using fresh

/-- A member that is in flight settles. -/
theorem settle (tallied : Tallied width count (before ++ none :: after) log) (time : Nat)
    (outcome : Outcome) :
    Tallied width count (before ++ some outcome :: after)
      (log ++ [⟨time, .settled before.length outcome⟩]) where
  orderly := by
    refine .settle tallied.orderly (List.mem_filter.mpr ⟨?_, ?_⟩) time outcome
    · rw [tallied.dispatches, List.mem_range, List.length_append, List.length_cons]
      omega
    · rw [decide_eq_true_eq, tallied.hasSettled_iff]
      simp
  dispatches := by
    rw [dispatches_append, dispatches_settled, dispatches_nil, List.append_nil, tallied.dispatches,
      List.length_append, List.length_append, List.length_cons, List.length_cons]
  settlements position other := by
    rw [settlements_append, settlements_settled, settlements_nil, List.mem_append,
      tallied.settlements, List.mem_singleton]
    by_cases here : position = before.length
    · subst here
      simp [eq_comm]
    · have elsewhere (middle : Option Outcome) :
          (before ++ middle :: after)[position]? = (before ++ none :: after)[position]? := by
        rw [List.getElem?_append, List.getElem?_append]
        by_cases earlier : position < before.length
        · rw [if_pos earlier, if_pos earlier]
        · rw [if_neg earlier, if_neg earlier]
          obtain ⟨later, same⟩ : ∃ later, position - before.length = later + 1 :=
            ⟨position - before.length - 1, by omega⟩
          rw [same, List.getElem?_cons_succ, List.getElem?_cons_succ]
      rw [elsewhere (some outcome)]
      simp [here]

/-- A member that is in flight settles if its activity has ended. -/
theorem settlement (tallied : Tallied width count (before ++ none :: after) log) (time : Nat)
    (activity : Activity) :
    Tallied width count (before ++ activity.outcome? :: after)
      (log ++ Workflow.settlement time before.length activity) := by
  cases activity with
  | ended outcome => exact tallied.settle time outcome
  | calling | seated | awaiting | together =>
    simpa [Workflow.settlement, Activity.outcome?] using tallied

/-- The members of a batch are dispatched when those before the batch have settled. -/
theorem dispatchAll {first : Nat} (tallied : Tallied width count tally log)
    (members : List (Step × Process)) (whole : width ∣ first) (begun : first ≤ tally.length)
    (finished : ∀ earlier < first, ∃ outcome, tally[earlier]? = some (some outcome))
    (fits : tally.length + members.length ≤ first + width)
    (among : tally.length + members.length ≤ count) (environment : Environment) :
    Tallied width count
      (tally ++ (dispatchAll environment tally.length members).2.1.map (·.2.outcome?))
      (log ++ (Workflow.dispatchAll environment tally.length members).2.2) := by
  induction members generalizing tally log environment with
  | nil => simpa [Workflow.dispatchAll] using tallied
  | cons member rest ih =>
    rw [List.length_cons] at fits among
    have batch (earlier : Nat) (sooner : earlier / width < tally.length / width) :
        ∃ outcome, tally[earlier]? = some (some outcome) := by
      obtain ⟨batches, rfl⟩ := whole
      have positive : 0 < width := by omega
      have here : tally.length / width = batches :=
        Nat.div_eq_of_lt_le (by rwa [Nat.mul_comm]) (by rw [Nat.succ_mul, Nat.mul_comm]; omega)
      rw [here, Nat.div_lt_iff_lt_mul positive, Nat.mul_comm] at sooner
      exact finished earlier sooner
    have dispatched := tallied.dispatch (by omega) batch environment.now
    have joined := dispatched.settlement (member.2.start environment).1.now
      (member.2.start environment).2
    have length : (tally ++ [(member.2.start environment).2.outcome?]).length =
        tally.length + 1 := by simp
    have others := ih joined (by omega) (fun earlier sooner => ?_) (by omega) (by omega)
      (member.2.start environment).1
    · rw [length] at others
      simpa [Workflow.dispatchAll] using others
    · obtain ⟨outcome, found⟩ := finished earlier sooner
      exact ⟨outcome, by rw [List.getElem?_append_left (by omega), found]⟩

/-- The members of a batch settle in whatever order they end. -/
theorem attendAll (batch : List (Step × Activity))
    (tallied : Tallied width count (before ++ batch.map (·.2.outcome?)) log)
    (environment : Environment) :
    Tallied width count
      (before ++ (attendAll environment before.length batch).2.1.map (·.2.outcome?))
      (log ++ (Workflow.attendAll environment before.length batch).2.2) := by
  induction batch generalizing before log environment with
  | nil => simpa [Workflow.attendAll] using tallied
  | cons member rest ih =>
    obtain ⟨step, activity⟩ := member
    have first : Tallied width count
        (before ++ (activity.resume environment).2.outcome? :: rest.map (·.2.outcome?))
        (log ++ newSettlement (activity.resume environment).1.now before.length activity
          (activity.resume environment).2) := by
      cases activity with
      | ended outcome =>
        simpa [newSettlement, Activity.resume, Activity.outcome?] using tallied
      | calling | seated | awaiting | together => exact tallied.settlement _ _
    have length : (before ++ [(activity.resume environment).2.outcome?]).length =
        before.length + 1 := by simp
    rw [List.append_cons] at first
    have others := ih first (activity.resume environment).1
    rw [length] at others
    simpa [Workflow.attendAll] using others

end Tallied

/-! ## Members and their processes -/

/-- A member has ended on its own. -/
def EndedAs (member : Step × Process) (entry : Step × Outcome) : Prop :=
  entry.1 = member.1 ∧ member.2.ComesTo (.ended entry.2)

/-- A member has come to something on its own. -/
def HasComeTo (member : Step × Process) (entry : Step × Activity) : Prop :=
  entry.1 = member.1 ∧ member.2.ComesTo entry.2

/-- Members that are dispatched have come to something. -/
theorem dispatchAll_comes (members : List (Step × Process)) (environment : Environment)
    (position : Nat) :
    List.Forall₂ HasComeTo members (dispatchAll environment position members).2.1 := by
  induction members generalizing environment position with
  | nil => exact .nil
  | cons member rest ih => exact .cons ⟨rfl, .start environment⟩ (ih _ _)

/-- Members that are attended to have come to something still. -/
theorem attendAll_comes {members : List (Step × Process)} {batch : List (Step × Activity)}
    (each : List.Forall₂ HasComeTo members batch) (environment : Environment) (position : Nat) :
    List.Forall₂ HasComeTo members (attendAll environment position batch).2.1 := by
  induction each generalizing environment position with
  | nil => exact .nil
  | cons first _ ih => exact .cons ⟨first.1, first.2.resume environment⟩ (ih _ _)

/-- The members of a batch have all ended if there are outcomes of all. -/
theorem eq_of_ended? {batch : List (Step × Activity)} {ended : List (Step × Outcome)}
    (finished : ended? batch = some ended) :
    batch = ended.map fun entry => (entry.1, .ended entry.2) := by
  obtain ⟨outcomes, all, rfl⟩ := Option.map_eq_some_iff.mp finished
  have activities := Activity.outcomes?_eq_some.mp all
  calc batch
      = (batch.map Prod.fst).zip (batch.map Prod.snd) := by
        rw [List.zip_map']
        simp
    _ = (batch.map Prod.fst).zip (outcomes.map .ended) := by rw [activities]
    _ = ((batch.map Prod.fst).zip outcomes).map fun entry => (entry.1, .ended entry.2) :=
        List.zip_map_right

namespace Roster

/-- The members of a group fall into those of the batches that are over, those of the batch that
runs and those that have not been started. -/
structure Stands (size count : Nat) (before running waiting : List (Step × Process))
    (roster : Roster) : Prop where
  past : List.Forall₂ EndedAs before roster.past
  batch : List.Forall₂ HasComeTo running roster.batch
  later : roster.later = batches size waiting
  /-- The batches that are over are full. -/
  whole : running ≠ [] → max size 1 ∣ before.length
  fits : running.length ≤ max size 1
  /-- The batch that runs is full if members remain. -/
  full : waiting ≠ [] → running.length = max size 1
  /-- Some member of the batch that runs has not ended. -/
  waits : running ≠ [] → ended? roster.batch = none
  tallied : Tallied (max size 1) count roster.tally roster.log

/-- A roster is in order for the members of a group. -/
def Conforms (size : Nat) (members : List (Step × Process)) (roster : Roster) : Prop :=
  ∃ before running waiting, members = before ++ running ++ waiting ∧
    roster.Stands size members.length before running waiting

variable {size count : Nat} {group : String}

/-- Members whose batches have been over count as settled. -/
theorem tally_over (ended : List (Step × Outcome)) :
    (ended.map fun entry => (entry.1, Activity.ended entry.2)).map (·.2.outcome?) =
      ended.map (some ·.2) := by
  rw [List.map_map]
  rfl

/-- Batches that are started leave a roster in order. -/
theorem advance_stands {before waiting : List (Step × Process)} {past : List (Step × Outcome)}
    {log : List LogEntry} (finished : List.Forall₂ EndedAs before past)
    (whole : waiting ≠ [] → max size 1 ∣ before.length)
    (among : before.length + waiting.length ≤ count)
    (tallied : Tallied (max size 1) count (past.map (some ·.2)) log) (environment : Environment) :
    ∃ done running rest, before ++ waiting = done ++ running ++ rest ∧
      (advance group environment past log (batches size waiting)).2.Stands size count done running
        rest := by
  generalize cut : batches size waiting = later
  induction later generalizing before waiting past log environment with
  | nil =>
    have none : waiting = [] := by
      rw [← flatten_batches size waiting, cut, List.flatten_nil]
    subst none
    rw [advance]
    refine ⟨before, [], [], by simp, ?_⟩
    exact {
      past := finished, batch := .nil, later := cut.symm
      whole := fun impossible => absurd rfl impossible
      fits := Nat.zero_le _
      full := fun impossible => absurd rfl impossible
      waits := fun impossible => absurd rfl impossible
      tallied := by simpa [tally] using tallied }
  | cons batch later ih =>
    obtain ⟨rest, rfl, rfl, filled, fits, full⟩ := batches_eq_cons cut
    have divides := whole (by simp [filled])
    have length : before.length = past.length := finished.length_eq
    rw [List.length_append] at among
    have known (earlier : Nat) (sooner : earlier < past.length) :
        ∃ outcome, (past.map (some ·.2))[earlier]? = some (some outcome) :=
      ⟨past[earlier].2, by simp [sooner]⟩
    have dispatched := tallied.dispatchAll batch (length ▸ divides) (by simp) known
      (by simpa using fits) (by simp; omega) environment
    have comes := dispatchAll_comes batch environment past.length
    rw [List.length_map] at dispatched
    rw [advance]
    cases found : ended? (dispatchAll environment past.length batch).2.1 with
    | none =>
      refine ⟨before, batch, rest, by simp, ?_⟩
      dsimp only
      exact {
        past := finished, batch := comes, later := rfl
        whole := fun _ => divides
        fits := fits
        full := full
        waits := fun _ => found
        tallied := dispatched }
    | some ended =>
      have all := eq_of_ended? found
      rw [all, tally_over, ← List.map_append] at dispatched
      rw [all, List.forall₂_map_right_iff] at comes
      dsimp only
      rw [← List.append_assoc]
      refine ih (List.rel_append finished comes) (fun remains => ?_) ?_ dispatched _ rfl
      · rw [List.length_append, full remains]
        exact Nat.dvd_add divides (Nat.dvd_refl _)
      · rw [List.length_append]
        omega

/-- A roster that goes on stays in order. -/
theorem Stands.goOn {before running waiting : List (Step × Process)} {roster : Roster}
    (stands : roster.Stands size count before running waiting) (group : String)
    (among : before.length + running.length + waiting.length ≤ count) (environment : Environment) :
    ∃ done running' rest, before ++ running ++ waiting = done ++ running' ++ rest ∧
      (roster.goOn group environment).2.Stands size count done running' rest := by
  obtain ⟨past, batch, later, log⟩ := roster
  obtain ⟨finished, comes, rfl, whole, fits, full, waits, tallied⟩ := stands
  have length : before.length = past.length := finished.length_eq
  have attended := tallied.attendAll batch environment
  have cameTo := attendAll_comes comes environment past.length
  rw [List.length_map] at attended
  rw [Roster.goOn]
  cases found : ended? (attendAll environment past.length batch).2.1 with
  | none =>
    refine ⟨before, running, waiting, rfl, ?_⟩
    dsimp only
    exact {
      past := finished, batch := cameTo, later := rfl
      whole := whole
      fits := fits
      full := full
      waits := fun _ => found
      tallied := attended }
  | some ended =>
    have all := eq_of_ended? found
    rw [all, tally_over, ← List.map_append] at attended
    rw [all, List.forall₂_map_right_iff] at cameTo
    dsimp only
    refine advance_stands (List.rel_append finished cameTo) (fun remains => ?_) ?_ attended _
    · have filled : running ≠ [] := by
        rintro rfl
        have none := full remains
        simp at none
        omega
      rw [List.length_append, full remains]
      exact Nat.dvd_add (whole filled) (Nat.dvd_refl _)
    · rw [List.length_append]
      omega

/-- A roster that is in order stays so. -/
theorem Conforms.goOn {members : List (Step × Process)} {roster : Roster}
    (conforms : roster.Conforms size members) (environment : Environment) :
    (roster.goOn group environment).2.Conforms size members := by
  obtain ⟨before, running, waiting, rfl, stands⟩ := conforms
  obtain ⟨done, running', rest, same, later⟩ := stands.goOn group (by simp; omega) environment
  exact ⟨done, running', rest, same, by rwa [same] at later ⊢⟩

end Roster

/-- A group that is watched is in order in every turn. -/
theorem Step.watch_conforms (setup : Setup) (context : Context) (group : Step)
    (moment : Nat → Environment) (turn : Nat) :
    (group.watch setup context moment turn).2.Conforms setup.maxParallelSteps
      (group.steps.map fun step => (step, step.process setup context)) := by
  induction turn with
  | zero =>
    exact Roster.advance_stands .nil (fun _ => Nat.dvd_zero _) (by simp) .nothing _
  | succ turn ih => exact ih.goOn _

end Workflow
