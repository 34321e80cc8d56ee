import Wayland.Client.ObjectTable

/-! # Event queues

Events wait in queues until the application dispatches them.  Each queue is first in, first out.
Queue 0, the default queue, exists as long as the connection is open; other queues come and go,
and their numbers are never used again.  They are counted without a limit here (see `QueueId` for
what this stands for).
-/

namespace Wayland.Client

/-- An event that waits to be dispatched. -/
structure QueuedEvent where
  sender : ObjectId
  /-- Generation of the sender when the event arrived. -/
  generation : Generation
  opcode : UInt16
  args : List Argument
  deriving DecidableEq

/-- The queues of a connection. -/
structure EventQueues where
  queues : Std.ExtTreeMap QueueId (List QueuedEvent)
  next : QueueId

namespace EventQueues

/-- The default queue alone. -/
def initial : EventQueues where
  queues := (∅ : Std.ExtTreeMap QueueId (List QueuedEvent)).insert QueueId.default []
  next := 1

/-- The events waiting in a queue, if the queue exists. -/
def get? (q : EventQueues) (queue : QueueId) : Option (List QueuedEvent) := q.queues[queue]?

def contains (q : EventQueues) (queue : QueueId) : Bool := (q.get? queue).isSome

/-- How many events wait in a queue; none in a queue that does not exist. -/
def pending (q : EventQueues) (queue : QueueId) : Nat := ((q.get? queue).getD []).length

/-- A new empty queue. -/
def create (q : EventQueues) : QueueId × EventQueues :=
  (q.next, { queues := q.queues.insert q.next [], next := q.next + 1 })

/-- Removes a queue and says what waited in it.  The default queue is never removed. -/
def remove (q : EventQueues) (queue : QueueId) : List QueuedEvent × EventQueues :=
  if queue = QueueId.default then ([], q)
  else ((q.get? queue).getD [], { q with queues := q.queues.erase queue })

/-- Puts an event at the end of a queue. -/
def push (q : EventQueues) (queue : QueueId) (event : QueuedEvent) : Logged EventQueues :=
  match q.get? queue with
  | some events => pure { q with queues := q.queues.insert queue (events ++ [event]) }
  | none => do
    Logged.note (.eventForMissingQueue event.opcode queue)
    return q

/-- Replaces the events of a queue. -/
def set (q : EventQueues) (queue : QueueId) (events : List QueuedEvent) : EventQueues :=
  { q with queues := q.queues.insert queue events }

/-- How many queues there are. -/
def count (q : EventQueues) : Nat := q.queues.size

/-- Forgets all queues. -/
def clear (q : EventQueues) : EventQueues := { q with queues := ∅ }

end EventQueues

end Wayland.Client
