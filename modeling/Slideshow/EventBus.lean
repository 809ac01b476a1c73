import Slideshow.Event

/-!
# The event bus

Events are kept twice: the last hundred for those who come late, and a channel from which each
receiver takes them in the order in which they were sent. A receiver that falls behind the channel's
size is told how many it missed.

* `recent` is newest first (`recent_events`), `history` oldest first (`job_history`).
* `receive` gives a receiver the next that waits for it, and `take` everything.

Out of scope: events that several threads broadcast in one moment.
-/

namespace Slideshow

/-- How many events are kept for those who come late. -/
def maxRecentEvents : Nat := 100

/-- What a receiver gets. -/
inductive Received where
  | event (e : Event)
  | lagged (missed : Nat)

/-- The bus: `sent` counts the events sent through the channel, which keeps the last `capacity`,
newest first; each receiver has the number of its next event. -/
structure EventBus where
  capacity : Nat
  kept : List Event
  channel : List Event
  sent : Nat
  receivers : List Nat

namespace EventBus

/-- The least power of two that is at least `n`. -/
def roundedCapacity (n : Nat) : Nat := if n ≤ 1 then 1 else Nat.pow 2 ((n - 1).log2 + 1)

def ofCapacity (n : Nat) : EventBus := ⟨roundedCapacity n, [], [], 0, []⟩

def empty : EventBus := ofCapacity 256

/-- Keeps an event and sends it to every receiver. -/
def broadcast (b : EventBus) (e : Event) : EventBus :=
  { b with
    kept := (e :: b.kept).take maxRecentEvents
    channel := (e :: b.channel).take b.capacity
    sent := b.sent + 1 }

/-- Adds a receiver, which gets what is sent from now on, and its index. -/
def subscribe (b : EventBus) : EventBus × Nat :=
  ({ b with receivers := b.receivers ++ [b.sent] }, b.receivers.length)

/-- What waits for a receiver whose next event has number `next`. -/
def waiting (b : EventBus) (next : Nat) : List Received :=
  let behind := b.sent - next
  let missed := behind - b.capacity
  (if missed = 0 then [] else [.lagged missed]) ++
    ((b.channel.take (min behind b.capacity)).reverse.map .event)

/-- Gives a receiver the next that waits for it: that it missed some events, or an event. -/
def receive (b : EventBus) (receiver : Nat) : EventBus × Option Received :=
  match b.receivers[receiver]? with
  | none => (b, none)
  | some next =>
    let behind := b.sent - next
    if behind = 0 then (b, none)
    else if b.capacity < behind then
      ({ b with receivers := b.receivers.set receiver (b.sent - b.capacity) },
        some (.lagged (behind - b.capacity)))
    else
      ({ b with receivers := b.receivers.set receiver (next + 1) },
        (b.channel[behind - 1]?).map .event)

/-- Gives a receiver everything that waits for it. -/
def take (b : EventBus) (receiver : Nat) : EventBus × List Received :=
  match b.receivers[receiver]? with
  | none => (b, [])
  | some next => ({ b with receivers := b.receivers.set receiver b.sent }, b.waiting next)

/-- The `n` most recent events, newest first. -/
def recent (b : EventBus) (n : Nat) : List Event := b.kept.take n

/-- What is kept about one job, oldest first. -/
def history (b : EventBus) (id : JobId) : List Event := b.kept.reverse.filter (·.job == id)

end EventBus

end Slideshow
