import Workflow.Event

/-!
# The channel of events

Every receiver gets the events that are published after it subscribed. The channel keeps a limited
number of events, the newest ones; a receiver that falls behind first learns how many it has lost.
-/
namespace Workflow

/-- The events that are kept and the number of all events so far. -/
structure Channel where
  capacity : Nat
  /-- The kept events, the newest first. -/
  recent : List Event
  /-- The number of events published so far. -/
  published : Nat
deriving DecidableEq, Repr

/-- How far a receiver has read: the number of events it has received or lost. -/
abbrev Receiver := Nat

/-- What a receiver gets at once: the number of lost events and the events after them. -/
structure Delivery where
  /-- The number of lost events. -/
  lost : Nat
  /-- The events, the oldest first. -/
  events : List Event
deriving DecidableEq, Repr

namespace Channel

/-- A channel with a buffer: the number of kept events is the next power of two. -/
def ofBuffer (buffer : Nat) : Channel := ⟨(max 1 buffer).nextPowerOfTwo, [], 0⟩

/-- Publish an event. -/
def publish (channel : Channel) (event : Event) : Channel :=
  { channel with
    recent := (event :: channel.recent).take channel.capacity
    published := channel.published + 1 }

/-- A new receiver. -/
def subscribe (channel : Channel) : Receiver := channel.published

/-- The number of the oldest event that is kept. -/
def oldest (channel : Channel) : Nat := channel.published - channel.recent.length

/-- All that waits for a receiver, and the receiver after it. -/
def receive (channel : Channel) (receiver : Receiver) : Delivery × Receiver :=
  let lost := channel.oldest - receiver
  let waiting := channel.published - (receiver + lost)
  (⟨lost, (channel.recent.take waiting).reverse⟩, channel.published)

/-- What a receiver gets next. -/
inductive Notice where
  /-- A number of events were lost. -/
  | lost (count : Nat)
  | event (event : Event)
deriving DecidableEq, Repr

/-- The next thing that waits for a receiver, and the receiver after it. -/
def next? (channel : Channel) (receiver : Receiver) : Option (Notice × Receiver) :=
  if receiver < channel.oldest then
    some (.lost (channel.oldest - receiver), channel.oldest)
  else if receiver < channel.published then
    channel.recent[channel.published - 1 - receiver]?.map (.event ·, receiver + 1)
  else none

end Channel

end Workflow
