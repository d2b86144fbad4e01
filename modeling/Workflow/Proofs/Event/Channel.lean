import Workflow.Event.Channel

/-!
# What a receiver finds in a channel

All that a channel is comes from the events that have been published: it keeps the newest ones, as
many as it has room for, and it counts all of them. A receiver reads them in order. If the next one
is not kept any more, it goes on with the oldest one that is.
-/
namespace Workflow

namespace Channel

/-- Publish events in order. -/
def publishAll (channel : Channel) (events : List Event) : Channel := events.foldl publish channel

/-- To publish two lists of events is to publish one after the other. -/
theorem publishAll_append (channel : Channel) (first second : List Event) :
    channel.publishAll (first ++ second) = (channel.publishAll first).publishAll second :=
  List.foldl_append

/-- The channel in which events have been told, the oldest first. -/
def telling (capacity : Nat) (told : List Event) : Channel :=
  ⟨capacity, told.reverse.take capacity, told.length⟩

variable (capacity : Nat) (told : List Event)

/-- A published event is the last of those that have been told. -/
theorem publish_telling (event : Event) :
    (telling capacity told).publish event = telling capacity (told ++ [event]) := by
  have kept : (event :: told.reverse.take capacity).take capacity =
      (told ++ [event]).reverse.take capacity := by
    cases capacity with
    | zero => rfl
    | succ room => simp [List.take_take]
  rw [telling, publish, telling, kept, List.length_append]
  rfl

/-- A channel that keeps the newest events goes on to do so. -/
theorem publishAll_telling (events : List Event) :
    (telling capacity told).publishAll events = telling capacity (told ++ events) := by
  induction events generalizing told with
  | nil => rw [List.append_nil]; rfl
  | cons event rest ih =>
    rw [← List.singleton_append, publishAll_append, ← List.append_assoc, ← ih,
      ← publish_telling]
    rfl

/-- Nothing has been told in a new channel. -/
theorem ofBuffer_eq_telling (buffer : Nat) :
    ofBuffer buffer = telling (ofBuffer buffer).capacity [] := by
  simp [ofBuffer, telling]

/-- As many events are no longer kept as there is no room for. -/
theorem oldest_telling : (telling capacity told).oldest = told.length - capacity := by
  simp only [oldest, telling, List.length_take, List.length_reverse]
  omega

variable {capacity told}

/-- Who has fallen behind learns how many events are lost. -/
theorem next?_telling_lost {receiver : Nat} (behind : receiver < told.length - capacity) :
    (telling capacity told).next? receiver =
      some (.lost (told.length - capacity - receiver), told.length - capacity) := by
  rw [next?, oldest_telling, if_pos behind]

/-- Who has not fallen behind gets the next event. -/
theorem next?_telling_event {receiver : Nat} (kept : told.length - capacity ≤ receiver)
    (waiting : receiver < told.length) :
    (telling capacity told).next? receiver = some (.event told[receiver], receiver + 1) := by
  have published : (telling capacity told).published = told.length := rfl
  have place : (telling capacity told).recent[told.length - 1 - receiver]? =
      some told[receiver] := by
    rw [telling, List.getElem?_take_of_lt (by omega), List.getElem?_reverse (by omega)]
    have same : told.length - 1 - (told.length - 1 - receiver) = receiver := by omega
    rw [same, List.getElem?_eq_getElem waiting]
  rw [next?, oldest_telling, if_neg (Nat.not_lt.mpr kept), published, if_pos waiting, place]
  rfl

/-- Who has read everything waits, and nobody else does. -/
theorem next?_telling_eq_none_iff {receiver : Nat} :
    (telling capacity told).next? receiver = none ↔ told.length ≤ receiver := by
  constructor
  · intro waits
    rcases Nat.lt_or_ge receiver told.length with waiting | read
    · rcases Nat.lt_or_ge receiver (told.length - capacity) with behind | kept
      · rw [next?_telling_lost behind] at waits
        cases waits
      · rw [next?_telling_event kept waiting] at waits
        cases waits
    · exact read
  · intro read
    have kept : told.length - capacity ≤ receiver := Nat.le_trans (Nat.sub_le ..) read
    rw [next?, oldest_telling, if_neg (Nat.not_lt.mpr kept)]
    exact if_neg (Nat.not_lt.mpr read)

end Channel

end Workflow
