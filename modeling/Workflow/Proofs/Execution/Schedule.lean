import Mathlib.Data.List.Basic
import Mathlib.Data.List.Perm.Subperm
import Workflow.Proofs.Execution.Roster

/-!
# Schedules

A log is orderly if it has come about by two kinds of steps: the next member is dispatched when all
members of earlier batches have settled, and a member that is in flight settles. Of an orderly log
it is known (`Orderly.scheduled`) that members are dispatched in their order and each once, that
each settles at most once and after it was dispatched, that at no moment more members are in flight
than a batch holds, and that no member is dispatched before the batches in front of its own are
over.
-/
namespace Workflow

/-- The member that an event dispatches. -/
def MemberEvent.dispatch? : MemberEvent → Option Nat
  | .dispatched position => some position
  | .settled _ _ => none

/-- The member that settles with an event, and its outcome. -/
def MemberEvent.settlement? : MemberEvent → Option (Nat × Outcome)
  | .dispatched _ => none
  | .settled position outcome => some (position, outcome)

/-- The members that have been dispatched, in order. -/
def dispatches (log : List LogEntry) : List Nat := log.filterMap (·.event.dispatch?)

/-- The members that have settled, with their outcomes, in order. -/
def settlements (log : List LogEntry) : List (Nat × Outcome) := log.filterMap (·.event.settlement?)

/-- A member has settled. -/
def HasSettled (log : List LogEntry) (position : Nat) : Prop :=
  position ∈ (settlements log).map Prod.fst

instance (log : List LogEntry) (position : Nat) : Decidable (HasSettled log position) :=
  inferInstanceAs (Decidable (_ ∈ _))

/-- The members that have been dispatched and have not settled. -/
def inFlight (log : List LogEntry) : List Nat :=
  (dispatches log).filter fun position => ¬HasSettled log position

/-- What a log has come about by, with batches of a width, for a number of members. -/
inductive Orderly (width count : Nat) : List LogEntry → Prop where
  | nothing : Orderly width count []
  /-- The next member is dispatched, since the batches before its own are over. -/
  | dispatch {log : List LogEntry} {position : Nat} (orderly : Orderly width count log)
      (next : dispatches log = List.range position) (among : position < count)
      (barrier : ∀ earlier, earlier / width < position / width → HasSettled log earlier)
      (time : Nat) : Orderly width count (log ++ [⟨time, .dispatched position⟩])
  /-- A member that is in flight settles. -/
  | settle {log : List LogEntry} {position : Nat} (orderly : Orderly width count log)
      (running : position ∈ inFlight log) (time : Nat) (outcome : Outcome) :
      Orderly width count (log ++ [⟨time, .settled position outcome⟩])

/-- How members are scheduled in batches of a width. -/
structure Scheduled (width count : Nat) (log : List LogEntry) : Prop where
  /-- They are dispatched in their order, each once. -/
  inOrder : ∃ dispatched ≤ count, dispatches log = List.range dispatched
  /-- Each settles at most once. -/
  once : ((settlements log).map Prod.fst).Nodup
  /-- None settles before it was dispatched. -/
  after : ∀ before later time position outcome,
    log = before ++ ⟨time, .settled position outcome⟩ :: later → position ∈ dispatches before
  /-- At no moment are more in flight than a batch holds. -/
  bounded : ∀ earlier, earlier <+: log → (inFlight earlier).length ≤ width
  /-- None is dispatched before every member of the batches before its own has settled. -/
  barrier : ∀ before later time position,
    log = before ++ ⟨time, .dispatched position⟩ :: later →
      ∀ earlier, earlier / width < position / width → HasSettled before earlier

/-! ## Single entries -/

section

variable (log : List LogEntry) (time position : Nat) (outcome : Outcome)

/-- The later part of a log dispatches after the earlier one. -/
theorem dispatches_append (log others : List LogEntry) :
    dispatches (log ++ others) = dispatches log ++ dispatches others :=
  List.filterMap_append

/-- The later part of a log settles after the earlier one. -/
theorem settlements_append (log others : List LogEntry) :
    settlements (log ++ others) = settlements log ++ settlements others :=
  List.filterMap_append

/-- An entry about a dispatch counts as one. -/
@[simp] theorem dispatches_dispatched (others : List LogEntry) :
    dispatches (⟨time, .dispatched position⟩ :: others) = position :: dispatches others := rfl

/-- An entry about a settlement is no dispatch. -/
@[simp] theorem dispatches_settled (others : List LogEntry) :
    dispatches (⟨time, .settled position outcome⟩ :: others) = dispatches others := rfl

/-- An entry about a dispatch is no settlement. -/
@[simp] theorem settlements_dispatched (others : List LogEntry) :
    settlements (⟨time, .dispatched position⟩ :: others) = settlements others := rfl

/-- An entry about a settlement counts as one. -/
@[simp] theorem settlements_settled (others : List LogEntry) :
    settlements (⟨time, .settled position outcome⟩ :: others) =
      (position, outcome) :: settlements others := rfl

/-- An empty log dispatches nothing. -/
@[simp] theorem dispatches_nil : dispatches [] = [] := rfl

/-- An empty log settles nothing. -/
@[simp] theorem settlements_nil : settlements [] = [] := rfl

/-- The settlements of a log are those of which its entries tell. -/
theorem mem_settlements {log : List LogEntry} {position : Nat} {outcome : Outcome} :
    (position, outcome) ∈ settlements log ↔ ∃ time, ⟨time, .settled position outcome⟩ ∈ log := by
  rw [settlements, List.mem_filterMap]
  constructor
  · rintro ⟨⟨time, event⟩, member, found⟩
    cases event with
    | dispatched other => cases found
    | settled other result =>
      cases found
      exact ⟨time, member⟩
  · rintro ⟨time, member⟩
    exact ⟨_, member, rfl⟩

/-- The dispatches of a log are those of which its entries tell. -/
theorem mem_dispatches {log : List LogEntry} {position : Nat} :
    position ∈ dispatches log ↔ ∃ time, ⟨time, .dispatched position⟩ ∈ log := by
  rw [dispatches, List.mem_filterMap]
  constructor
  · rintro ⟨⟨time, event⟩, member, found⟩
    cases event with
    | dispatched other =>
      cases found
      exact ⟨time, member⟩
    | settled other result => cases found
  · rintro ⟨time, member⟩
    exact ⟨_, member, rfl⟩

/-- A dispatch settles nothing. -/
theorem hasSettled_dispatched {other : Nat} :
    HasSettled (log ++ [⟨time, .dispatched position⟩]) other ↔ HasSettled log other := by
  simp [HasSettled, settlements_append]

/-- A settlement settles its own position only. -/
theorem hasSettled_settled {other : Nat} :
    HasSettled (log ++ [⟨time, .settled position outcome⟩]) other ↔
      HasSettled log other ∨ other = position := by
  simp [HasSettled, settlements_append]

end

/-! ## Orderly logs -/

namespace Orderly

variable {width count : Nat} {log : List LogEntry}

/-- What an orderly log has come about by before its last entry is orderly. -/
theorem of_concat {entry : LogEntry} (orderly : Orderly width count (log ++ [entry])) :
    Orderly width count log := by
  generalize whole : log ++ [entry] = longer at orderly
  cases orderly with
  | nothing => simp at whole
  | dispatch before => rwa [(List.append_inj' whole rfl).1]
  | settle before => rwa [(List.append_inj' whole rfl).1]

/-- What an orderly log begins with is orderly. -/
theorem of_append {others : List LogEntry} (orderly : Orderly width count (log ++ others)) :
    Orderly width count log := by
  induction others using List.reverseRecOn with
  | nil => rwa [List.append_nil] at orderly
  | append_singleton others entry ih =>
    rw [← List.append_assoc] at orderly
    exact ih orderly.of_concat

/-- Members are dispatched in their order. -/
theorem inOrder (orderly : Orderly width count log) :
    ∃ dispatched ≤ count, dispatches log = List.range dispatched := by
  induction orderly with
  | nothing => exact ⟨0, Nat.zero_le _, rfl⟩
  | @dispatch log position _ next among _ time ih =>
    refine ⟨position + 1, among, ?_⟩
    rw [dispatches_append, next, List.range_succ]
    rfl
  | settle _ _ time outcome ih =>
    rw [dispatches_append, dispatches_settled, dispatches_nil, List.append_nil]
    exact ih

/-- Members that have settled have been dispatched. -/
theorem dispatched_of_settled (orderly : Orderly width count log) {position : Nat}
    (settled : HasSettled log position) : position ∈ dispatches log := by
  induction orderly with
  | nothing => cases settled
  | dispatch _ _ _ _ time ih =>
    rw [hasSettled_dispatched] at settled
    rw [dispatches_append]
    exact List.mem_append_left _ (ih settled)
  | @settle log other _ running time outcome ih =>
    rw [dispatches_append, dispatches_settled, dispatches_nil, List.append_nil]
    rcases (hasSettled_settled ..).mp settled with before | rfl
    · exact ih before
    · exact (List.mem_filter.mp running).1

/-- No position of an orderly log is settled twice. -/
theorem once (orderly : Orderly width count log) : ((settlements log).map Prod.fst).Nodup := by
  induction orderly with
  | nothing => exact List.nodup_nil
  | dispatch _ _ _ _ time ih =>
    rwa [settlements_append, settlements_dispatched, settlements_nil, List.append_nil]
  | @settle log position _ running time outcome ih =>
    have unsettled : ¬HasSettled log position := by simpa using (List.mem_filter.mp running).2
    rw [settlements_append, settlements_settled, settlements_nil, List.map_append]
    exact List.nodup_append'.mpr ⟨ih, List.nodup_singleton _, by simpa [HasSettled] using unsettled⟩

/-- When a member is dispatched, those in flight are in its batch and come before it. -/
theorem inFlight_before {position : Nat} (next : dispatches log = List.range position)
    (barrier : ∀ earlier, earlier / width < position / width → HasSettled log earlier) :
    (inFlight log).length ≤ position % width := by
  have among : inFlight log ⊆ List.range' (position - position % width) (position % width) := by
    intro other running
    obtain ⟨member, unsettled⟩ := List.mem_filter.mp running
    rw [next, List.mem_range] at member
    have notEarlier : ¬other / width < position / width := fun earlier => by
      simp [barrier other earlier] at unsettled
    have start : position - position % width ≤ other := by
      have below := Nat.div_mul_le_self other width
      have whole := Nat.div_add_mod' position width
      have batch := Nat.mul_le_mul_right width (Nat.le_of_not_lt notEarlier)
      omega
    rw [List.mem_range'_1]
    have small := Nat.mod_le position width
    omega
  have distinct : (inFlight log).Nodup := by
    rw [inFlight, next]
    exact List.nodup_range.filter _
  simpa using (distinct.subperm among).length_le

/-- At no moment more members are in flight than a batch holds. -/
theorem inFlight_length (orderly : Orderly width count log) (positive : 0 < width) :
    (inFlight log).length ≤ width := by
  induction orderly with
  | nothing => exact Nat.zero_le _
  | @dispatch log position orderly next _ barrier time ih =>
    have fresh : ¬HasSettled log position := fun settled => by
      have known := orderly.dispatched_of_settled settled
      rw [next] at known
      simp at known
    have joins : inFlight (log ++ [⟨time, .dispatched position⟩]) =
        inFlight log ++ [position] := by
      simp [inFlight, dispatches_append, hasSettled_dispatched, fresh]
    have others := inFlight_before next barrier
    have small := Nat.mod_lt position positive
    rw [joins, List.length_append, List.length_singleton]
    omega
  | @settle log position _ _ time outcome ih =>
    have fewer : (inFlight (log ++ [⟨time, .settled position outcome⟩])).Sublist
        (inFlight log) := by
      rw [inFlight, dispatches_append, dispatches_settled, dispatches_nil, List.append_nil]
      refine List.monotone_filter_right _ fun other unsettled => ?_
      simp only [hasSettled_settled, not_or, decide_eq_true_eq] at unsettled ⊢
      exact unsettled.1
    exact fewer.length_le.trans ih

/-- What is allowed when a member is dispatched. -/
theorem barrier {time position : Nat}
    (orderly : Orderly width count (log ++ [⟨time, .dispatched position⟩])) :
    ∀ earlier, earlier / width < position / width → HasSettled log earlier := by
  generalize whole : log ++ [⟨time, .dispatched position⟩] = longer at orderly
  cases orderly with
  | nothing => simp at whole
  | dispatch _ _ _ barrier =>
    obtain ⟨rfl, last⟩ := List.append_inj' whole rfl
    cases last
    exact barrier
  | settle =>
    obtain ⟨_, last⟩ := List.append_inj' whole rfl
    cases last

/-- What is allowed when a member settles. -/
theorem running {time position : Nat} {outcome : Outcome}
    (orderly : Orderly width count (log ++ [⟨time, .settled position outcome⟩])) :
    position ∈ dispatches log := by
  generalize whole : log ++ [⟨time, .settled position outcome⟩] = longer at orderly
  cases orderly with
  | nothing => simp at whole
  | dispatch =>
    obtain ⟨_, last⟩ := List.append_inj' whole rfl
    cases last
  | settle _ running =>
    obtain ⟨rfl, last⟩ := List.append_inj' whole rfl
    cases last
    exact (List.mem_filter.mp running).1

/-- An orderly log schedules the members. -/
theorem scheduled (orderly : Orderly width count log) (positive : 0 < width) :
    Scheduled width count log where
  inOrder := orderly.inOrder
  once := orderly.once
  after before later time position outcome split := by
    subst split
    rw [List.append_cons] at orderly
    exact orderly.of_append.running
  bounded earlier front := by
    obtain ⟨others, rfl⟩ := front
    exact orderly.of_append.inFlight_length positive
  barrier before later time position split := by
    subst split
    rw [List.append_cons] at orderly
    exact orderly.of_append.barrier

end Orderly

end Workflow
