import Wayland.Proofs.Session.LoggedScripts

/-! # Which handlers hear the events of an object

An event runs the handler that its opcode points to, of what was attached first to the object that
it was read for.  There always is such a handler, whatever has happened to objects and their numbers
since the event was read.

For a connection on its own this takes some assumptions about whoever uses it (`TargetsHeld`).  An
application meets them: it attaches things only through proxies, and all proxies come from
connections.
-/

namespace Wayland.Session

open Client (Action Connection Delivery Incoming ObjectRef QueueId TargetsHeld Uniform displayId
  listenersOf tablesOf)

/-- There is a handler for every event that is handed out. -/
theorem entered_of_fits {protocol : Protocol} {actions : List (Action ObjectData)}
    {queue : QueueId} {d : Delivery ObjectData}
    (delivered :
      (((Connection.initial protocol).run actions).step (.next queue)).delivery? = some d)
    (fits : d.data.handlers = d.interface.events.length) (act : Act) (k : ConnectionRef) :
    Entered act k d :=
  entered_of_lt (fits ▸ Connection.delivered_opcode_lt delivered)

/-- Any run of a connection, and any script.  An event that a queue hands out is heard by what was
    attached first to the object that it was read for, which is still alive, and it runs the handler
    that its opcode points to; a listener is called.  The assumption is that tables of one name have
    the same events.  A connection on its own has to be used properly, too: things are attached
    through holders of objects, with as many handlers as they say. -/
theorem delivered_to_first_listener (protocol : Protocol) :
    (∀ (actions : List (Action ObjectData)) (queue : QueueId) (d : Delivery ObjectData),
      (((Connection.initial protocol).run actions).step (.next queue)).delivery? = some d →
      let past := (Connection.initial protocol).trace actions
      Connection.Heard protocol actions queue d ∧
      (Uniform (tablesOf protocol past) → TargetsHeld [] past →
        (∀ s ∈ past, ∀ offer ∈ s.action.offer?, offer.2.handlers = offer.1) →
          ∀ act k, Entered act k d)) ∧
    (Uniform (Protocol.Core.tables ++ protocol.interfaces) →
      ∀ (patience depth : Nat) (steps : List Step),
      let s := State.start protocol
      let run := (runSteps patience depth steps).run s
      ∃ log, s.Passes patience (.script depth) log run.2 ∧
        run.1.flatMap Answer.invoked = invoked log ∧
        ∀ past k queue d called future, log = past ++ .hands k queue d called :: future →
          let popped := ((Connection.initial protocol).run (courseOf k past)).step (.next queue)
          popped.delivery? = some d ∧ Connection.Heard protocol (courseOf k past) queue d ∧
          (∀ act, Entered act k d) ∧
          ∀ context label interface handlers actions,
            d.data = .listener context label interface handlers actions →
            ∃ t : State, (t.channel k).connection = popped.after ∧
              called = some ⟨label, .event d.event.opcode.toNat d.event.sender d.event.opcode
                d.event.args (t.resolve k d.event.args), actions⟩) := by
  refine ⟨?_, ?_⟩
  · intro actions queue d delivered past
    refine ⟨Connection.delivered_heard delivered, fun uniform held offers => ?_⟩
    have fitted := Client.fitted_run actions held offers
    exact entered_of_fits delivered (fitted.delivered uniform delivered)
  · intro uniform patience depth steps s run
    obtain ⟨log, passes, answers, suited, fits, _⟩ := script_logged protocol patience depth steps
    refine ⟨log, passes, answers, ?_⟩
    intro past k queue d called future split popped
    have handlers : d.data.handlers = d.interface.events.length :=
      suited k queue d called (by simp [split]) uniform
    obtain ⟨delivered, t, connection, _, rfl⟩ := fits.of_split split
    rw [List.nil_append, connectionAt_start] at delivered connection
    refine ⟨delivered, Connection.delivered_heard delivered,
      fun act => entered_of_fits delivered handlers act k, ?_⟩
    intro context label interface count actions data
    have within : d.event.opcode.toNat < count := by
      have lt := Connection.delivered_opcode_lt delivered
      rw [← handlers, data] at lt
      exact lt
    exact ⟨t, connection, by simp [State.summoned, data, within]⟩

/-- The handler that a call is one of, if it is one of a listener. -/
def Cause.handler? : Cause → Option Nat
  | .event index _ _ _ _ => some index
  | _ => none

def button : Interface := ⟨"button", 1, [], [⟨"pressed", "u", [none]⟩, ⟨"released", "u", [none]⟩]⟩

/-- A button is pressed and destroyed.  Its number goes to another button, which is released. -/
def twoButtons : List (Action ObjectData) :=
  let display : ObjectRef := ⟨displayId, 0, Protocol.Core.display, 1⟩
  let listener (label : String) : ObjectData := .listener .a label "button" 2 []
  let arrives (message : Incoming) : Action ObjectData :=
    .read [.received message.packet.bytes [], .wouldBlock]
  [.create display button 1, .attach ⟨2, 1, button, 1⟩ button 2 (listener "old"),
    .request display 1 [.newId 2] false [], .createQueue,
    .prepareRead 1, arrives (.event 2 0 [.uint 5]), .release ⟨2, 1, button, 1⟩,
    .prepareRead 1, arrives (.deleteId 2),
    .create display button 1, .attach ⟨2, 2, button, 1⟩ button 2 (listener "new"),
    .request display 1 [.newId 2] false [],
    .prepareRead 1, arrives (.event 2 1 [.uint 6])]

/-- The same done by an application, which goes on to dispatch what has been read. -/
def buttonSteps : List Step :=
  let read (message : Incoming) : List Step :=
    [.serverSend "d" message.packet.bytes.toArray [], .prepareRead "d" (some "q") "i",
      .readEvents "i"]
  let add (label : String) : List Step :=
    [.create "@d" "button" (some 1) "b", .listen "b" { label }, .marshal "@d" 1 [.newId 2] 1]
  .createQueue "d" "q" :: add "old" ++ read (.event 2 0 [.uint 5]) ++ .destroy "b" ::
    read (.deleteId 2) ++ add "new" ++ read (.event 2 1 [.uint 6]) ++ [.dispatchPending "d" none]

def buttonRun : List Answer × State := (runSteps 9 2 buttonSteps).run (State.start ⟨[button]⟩)

/-- Both events wait under the same number, and the second button hears only its own. -/
theorem delivered_to_first_listener_successor :
    let past := (Connection.initial ⟨[button]⟩).trace twoButtons
    let c := (Connection.initial ⟨[button]⟩).run twoButtons
    c.queues.get? QueueId.default = some [⟨2, 1, 0, [.uint 5]⟩, ⟨2, 2, 1, [.uint 6]⟩] ∧
    (∃ d, (c.step (.next QueueId.default)).delivery? = some d ∧ d.event = ⟨2, 2, 1, [.uint 6]⟩ ∧
      (listenersOf 2 1 past).map (fun data => contextsOf (some data)) = [(some "old", none)] ∧
      listenersOf 2 2 past = [d.data] ∧ ∀ act k, Entered act k d) ∧
    ∃ log, (State.start ⟨[button]⟩).Passes 9 (.script 2) log buttonRun.2 ∧
      (invoked log).map (fun call => (call.1, call.2.handler?)) = [("new", some 1)] := by
  intro past c
  obtain ⟨ofRuns, ofScripts⟩ := delivered_to_first_listener ⟨[button]⟩
  obtain ⟨log, passes, answers, _⟩ := ofScripts (by decide +kernel) 9 2 buttonSteps
  have shown : (c.step (.next QueueId.default)).delivery?.map (·.event) =
      some ⟨2, 2, 1, [.uint 6]⟩ := by decide +kernel
  obtain ⟨d, delivered, event⟩ := Option.map_eq_some_iff.1 shown
  obtain ⟨heard, entered⟩ := ofRuns twoButtons QueueId.default d delivered
  have first := heard.first
  rw [event] at first
  refine ⟨by decide +kernel, ⟨d, delivered, event, by decide +kernel, first, ?_⟩, log, passes, ?_⟩
  · exact entered (by decide +kernel) (by decide +kernel) (by decide +kernel)
  · have listed : (buttonRun.1.flatMap Answer.invoked).map (fun call => (call.1, call.2.handler?)) =
        [("new", some 1)] := by decide +kernel
    exact answers ▸ listed

end Wayland.Session
