import Wayland.Proofs.Client.Threads
import Wayland.Proofs.Session.LoggedScripts

/-! # New objects are announced before they are heard

What a new object sends waits behind the event that announced it, so the handler of the event is
called before those of the object.  This holds of scripts, where an event is handed out and calls
its handler in one go.  Threads may get between the two; then it takes that only one of them
dispatches the queue.
-/

namespace Wayland.Session

open Client (Action Announcement Connection Crew clock Delivery Entry Incoming QueueId QueuedEvent
  displayId poppedFrom pushedTo)

theorem courseOf_hands (k : ConnectionRef) (queue : QueueId) (d : Delivery ObjectData)
    (called : Option Invocation) (before after : List Mark) :
    courseOf k (before ++ .hands k queue d called :: after) =
      courseOf k before ++ .next queue :: courseOf k after := by
  simp [courseOf, Mark.action?]

/-- Whatever the log says was handed out has come out of the connection. -/
theorem delivered_of_hands {protocol : Protocol} {before after : List Mark} {k : ConnectionRef}
    {queue : QueueId} {d : Delivery ObjectData} {called : Option Invocation}
    (fits : Fits (State.start protocol) [] (before ++ after))
    (mem : .hands k queue d called ∈ before) :
    ∃ u ∈ (Connection.initial protocol).trace (courseOf k before), u.delivery? = some d := by
  obtain ⟨earlier, later, rfl⟩ := List.append_of_mem mem
  obtain ⟨delivered, _⟩ := fits.of_split (List.append_assoc earlier (_ :: later) after)
  rw [List.nil_append, connectionAt_start] at delivered
  refine ⟨_, ?_, delivered⟩
  rw [courseOf_hands, Connection.trace_append]
  exact List.mem_append_right _ List.mem_cons_self

/-- A herald tells of new clocks. -/
def herald : Interface := ⟨"herald", 1, [], [⟨"appear", "n", [some 1]⟩]⟩

def news : QueuedEvent := ⟨2, 1, 0, [.newId 0xff000000]⟩

def tick : QueuedEvent := ⟨0xff000000, 2, 0, [.uint 7]⟩

/-- The compositor sends both at once. -/
def newsAndTick : Wire.Bytes :=
  (Incoming.event 2 0 [.newId 0xff000000]).packet.bytes ++
    (Incoming.event 0xff000000 0 [.uint 7]).packet.bytes

/-- A herald in a queue of its own. -/
def heraldWaits : List (Action Unit) :=
  [.create ⟨displayId, 0, Protocol.Core.display, 1⟩ herald 1, .attach ⟨2, 1, herald, 1⟩ herald 1 (),
    .createQueue, .setQueue ⟨2, 1, herald, 1⟩ 1, .prepareRead QueueId.default]

def heraldTells : Action Unit := .read [.received newsAndTick [], .wouldBlock]

/-- The herald moves to the default queue. -/
def heraldMoves : List (Action Unit) :=
  [.setQueue ⟨2, 1, herald, 1⟩ QueueId.default, .attach ⟨0xff000000, 2, clock, 1⟩ clock 1 ()]

/-- One thread has the news in hand.  Meanwhile another one hears the clock tick. -/
def twoThreads : Crew Unit :=
  (Crew.start ⟨[herald, clock]⟩).run
    ((heraldWaits ++ heraldTells :: heraldMoves).map (.acts 0) ++
      [.acts 1 (.next 1), .acts 2 (.next 1), .calls 2])

/-- An application listens to the herald, and to the clock as soon as it is told of it. -/
def heraldSteps : List Step :=
  [.create "@d" "herald" (some 1) "h", .listen "h"
      { label := "news", actions := [.adopt (.display "d") 0xff000000 "clock" "c",
          .listen "c" { label := "tick" }] },
    .marshal "@d" 1 [.newId 2] 1, .serverSend "d" newsAndTick.toArray [], .pump "d"]

def heraldRun : List Answer × State :=
  (runSteps 9 2 heraldSteps).run (State.start ⟨[herald, clock]⟩)

end Wayland.Session
