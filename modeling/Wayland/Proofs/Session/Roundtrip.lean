import Wayland.Proofs.Client.NumberReuse
import Wayland.Proofs.Client.Segments
import Wayland.Proofs.Session.Calls
import Wayland.Proofs.Session.Scripts

/-! # What a roundtrip waits for

A roundtrip asks the compositor to tell when it has handled everything so far, and dispatches a
queue until the answer has been handed out.  Handlers run meanwhile and may do anything, and other
callbacks may be done; numbers may be given to other objects.

A roundtrip that returns is taken apart (`State.Roundtrips`): the request is made by four actions
of the connection, then the queue is dispatched, and in the end the callback is dropped.  What was
attached to the callback was attached to nothing else, so what has ended the wait is the answer to
this request.
-/

namespace Wayland.Session

open Client (Action Connection Delivery Logged Note ClientError ObjectRef QueueId QueuedEvent
  Request SendOutcome accepted displayId poppedFrom pushedTo taken)

variable {s t u : State} {k : ConnectionRef}

/-! ## Calls of one connection -/

/-- One connection of a session has taken actions; the others are as they were, and they are kept
    alive by what kept them alive. -/
structure State.Takes (k : ConnectionRef) (actions : List (Action ObjectData)) (s t : State) :
    Prop where
  protocol : t.protocol = s.protocol
  length : t.channels.length = s.channels.length
  connections : ∀ j, t.connectionAt j = (s.connectionAt j).run (if j = k then actions else [])
  displays : t.displays = s.displays
  keeps : t.keeps = s.keeps

namespace State.Takes

variable {actions more : List (Action ObjectData)}

theorem idle (protocol : t.protocol = s.protocol) (channels : t.channels = s.channels)
    (displays : t.displays = s.displays) (keeps : t.keeps = s.keeps) : s.Takes k [] t where
  protocol := protocol
  length := congrArg List.length channels
  connections j := by
    rw [connectionAt_congr protocol channels]
    split <;> rfl
  displays := displays
  keeps := keeps

theorem putChannel {channel : Channel} {notes : List Note} (known : k < s.channels.length)
    (moved : channel.connection = (s.channel k).connection.run actions) :
    s.Takes k actions (s.putChannel k channel notes) where
  protocol := rfl
  length := by simp [State.putChannel]
  connections j := by
    rw [connectionAt_putChannel]
    by_cases here : j = k
    · rw [if_pos ⟨here, known⟩, if_pos here, here, connectionAt_of_lt known, moved]
    · rw [if_neg (here ·.1), if_neg here]
      rfl
  displays := rfl
  keeps := rfl

theorem trans (first : s.Takes k actions t) (second : t.Takes k more u) :
    s.Takes k (actions ++ more) u where
  protocol := second.protocol.trans first.protocol
  length := second.length.trans first.length
  connections j := by
    rw [second.connections, first.connections]
    split
    · rw [Connection.run_append]
    · rfl
  displays := second.displays.trans first.displays
  keeps := second.keeps.trans first.keeps

theorem connection (takes : s.Takes k actions t) (known : k < s.channels.length) :
    (t.channel k).connection = (s.channel k).connection.run actions := by
  rw [← connectionAt_of_lt known, ← connectionAt_of_lt (takes.length ▸ known), takes.connections,
    if_pos rfl]

theorem displayed (takes : s.Takes k actions t) (displayed : s.Displayed) : t.Displayed where
  placed := by
    rw [takes.displays, takes.length]
    exact displayed.placed
  shown := by
    intro j known isOpen
    rw [takes.displays]
    refine displayed.shown (takes.length ▸ known) (Bool.eq_false_iff.2 fun closed => ?_)
    rw [takes.connections, Connection.run_closed closed] at isOpen
    cases isOpen

theorem follows {told : Nat → Prop} {fresh : Nat} (takes : s.Takes k actions t)
    (callbacks : s.callbacks.length ≤ t.callbacks.length)
    (signalled : ∀ cell, t.signalled cell = s.signalled cell)
    (attached : ∀ {o : ObjectRef} {interface : Interface} {handlers cell : Nat},
      .attach o interface handlers (.callback cell) ∈ actions →
        fresh ≤ cell ∧ cell < t.callbacks.length) :
    s.Follows told fresh (fun j => if j = k then actions else []) t where
  protocol := takes.protocol
  channels := Nat.le_of_eq takes.length.symm
  callbacks := callbacks
  connections := takes.connections
  attached mem := by
    split at mem
    · exact attached mem
    · cases mem
  signals done := .inl (signalled _ ▸ done)
  displayed := takes.displayed

end State.Takes

section

variable {p : Proxy} {o : ObjectRef}

theorem create_takes {interface : Interface} {q : Proxy} (known : k < s.channels.length)
    (of : ∀ h, p.handle = some h → h.connection = k)
    (done : s.outcome (p.create interface) = (.ok q, t)) :
    ∃ h o, p.handle = some h ∧ s.keeps k = true ∧ q = { handle := some ⟨k, o⟩, owning := true } ∧
      (s.channel k).connection.createObject h.object interface h.object.version =
        .ok (o, (t.channel k).connection) ∧
      s.Takes k [.create h.object interface h.object.version] t ∧ t.callbacks = s.callbacks := by
  obtain ⟨_, _, got, done⟩ := of_outcome_bind done
  cases got
  cases valid : s.valid? p with
  | none =>
    rw [valid] at done
    cases done
  | some h =>
    rw [valid] at done
    obtain ⟨h', _, live, done⟩ := of_outcome_bind done
    obtain ⟨held, kept, rfl⟩ := live_ok live
    obtain rfl : h' = h := Option.some.inj (held.symm.trans (valid?_some valid).1)
    obtain rfl := of h' held
    obtain ⟨o, _, made, done⟩ := of_outcome_bind done
    obtain ⟨c, created, rfl⟩ := tryConnection_ok made
    cases done
    rw [Logged.value_pure] at created
    refine ⟨h', o, held, kept, rfl, ?_, .putChannel known (createObject_step created).1.symm, rfl⟩
    rw [channel_putChannel known]
    exact created

theorem setQueueId_takes {h : Handle} {queue : QueueId} (known : h.connection < s.channels.length)
    (held : p.handle = some h) (done : s.outcome (p.setQueueId queue) = (.ok (), t)) :
    (s.channel h.connection).connection.setQueue h.object queue =
        .ok (t.channel h.connection).connection ∧
      s.Takes h.connection [.setQueue h.object queue] t ∧ t.callbacks = s.callbacks := by
  obtain ⟨h', _, live, done⟩ := of_outcome_bind done
  obtain ⟨held', _, rfl⟩ := live_ok live
  obtain rfl : h' = h := Option.some.inj (held'.symm.trans held)
  obtain ⟨c, value, rfl⟩ := tryConnection_ok done
  cases moved : (s.channel h'.connection).connection.setQueue h'.object queue with
  | error cause => simp [moved, Except.map] at value
  | ok c' =>
    obtain rfl : c' = c := by simpa [moved, Except.map] using value
    refine ⟨?_, .putChannel known (setQueue_step moved).symm, rfl⟩
    rw [channel_putChannel known]

/-- Whether or not the handlers can be attached. -/
theorem attachHandlers_takes {h : Handle} (known : h.connection < s.channels.length)
    (held : p.handle = some h) (kept : s.keeps h.connection = true) (interface : Interface)
    (data : ObjectData) :
    s.Takes h.connection [.attach h.object interface interface.events.length data]
        ((attachHandlers p interface data).run s).2 ∧
      ((attachHandlers p interface data).run s).2.callbacks = s.callbacks := by
  have live : s.outcome p.live = (.ok h, s) := by
    rw [outcome_live, held]
    exact if_pos kept
  unfold attachHandlers
  rw [run_bind, run_outcome, Proxy.attach, outcome_bind_ok live, outcome_tryConnection]
  dsimp only
  generalize attached : ((s.channel h.connection).connection.attach h.object interface
    interface.events.length data).value = result
  cases result with
  | ok result =>
    exact ⟨.putChannel known (attach_step attached), rfl⟩
  | error cause =>
    -- An action that is refused is an action all the same.
    have refused : (s.channel h.connection).connection = (s.channel h.connection).connection.run
        [.attach h.object interface interface.events.length data] := by
      simp [Connection.run, Connection.step, Connection.perform, attached, Connection.settle,
        Except.map]
    have stays : s.Takes h.connection _ (s.putChannel h.connection (s.channel h.connection) []) :=
      .putChannel known refused
    exact ⟨stays.trans (.idle rfl rfl rfl rfl), rfl⟩

theorem newCallback_takes {h : Handle} (known : h.connection < s.channels.length)
    (held : p.handle = some h) (kept : s.keeps h.connection = true) :
    s.Takes h.connection [.attach h.object Protocol.Core.callback
        Protocol.Core.callback.events.length (.callback s.callbacks.length)]
        ((newCallback p).run s).2 ∧
      ((newCallback p).run s).2.callbacks = s.callbacks ++ [({} : CallbackHandlers)] := by
  have placed : s.Takes h.connection [] { s with callbacks := s.callbacks ++ [{}] } :=
    .idle rfl rfl rfl rfl
  obtain ⟨attached, same⟩ := attachHandlers_takes (s := { s with callbacks := s.callbacks ++ [{}] })
    known held kept Protocol.Core.callback (.callback s.callbacks.length)
  exact ⟨placed.trans attached, same⟩

theorem announce_takes {object b : Bound} {h : Handle} {opcode : UInt16} {args : List Argument}
    (known : h.connection < s.channels.length) (held : p.handle = some h)
    (done : s.outcome (announce object p opcode args) = (.ok b, t)) :
    t.callbacks = s.callbacks ∧ ∃ outcomes,
      ((s.channel h.connection).connection.step
        (.request h.object opcode args false outcomes)).accepted? =
          some ⟨h.object, opcode, args, false⟩ ∧
      s.Takes h.connection [.request h.object opcode args false outcomes] t := by
  obtain ⟨result, _, observed, done⟩ := of_outcome_bind done
  have marshalled := of_outcome_observing observed
  cases result with
  | error cause =>
    obtain ⟨_, _, _, failed⟩ := of_outcome_bind done
    cases failed
  | ok _ =>
    cases done
    obtain ⟨h', _, live, sent⟩ := of_outcome_bind marshalled
    obtain ⟨held', _, rfl⟩ := live_ok live
    obtain rfl : h' = h := Option.some.inj (held'.symm.trans held)
    obtain ⟨granted, rfl⟩ := tryChannel_ok sent
    refine ⟨rfl, _, ?_, .putChannel known (Channel.sendRequest_step _ _ _ _)⟩
    simp only [Channel.sendRequest, Logged.value_bind, Logged.value_pure] at granted
    simp [Client.Step.accepted?, Connection.step, Connection.perform, Client.refusal, granted]

end

/-! ## The phases of a roundtrip -/

/-- How a roundtrip asks: a callback is created, sent to the queue and given its handlers, and the
    compositor is told about it. -/
def asking (display o : ObjectRef) (queue : QueueId) (cell : Nat) (outcomes : List SendOutcome) :
    List (Action ObjectData) :=
  [.create display Protocol.Core.callback display.version, .setQueue o queue,
    .attach o Protocol.Core.callback Protocol.Core.callback.events.length (.callback cell),
    .request display Protocol.Core.syncRequest [.newId o.id] false outcomes]

/-- A session in which a roundtrip has asked and waits for the answer. -/
structure State.Asks (k : ConnectionRef) (queue : QueueId) (display o : ObjectRef)
    (outcomes : List SendOutcome) (s waits : State) : Prop where
  genuine : display.id = displayId
  created : ∃ c, (s.channel k).connection.createObject display Protocol.Core.callback
    display.version = .ok (o, c)
  exist : (s.channel k).connection.queues.contains queue = true
  takes : s.Takes k (asking display o queue s.callbacks.length outcomes) waits
  accepts : accepted ((s.channel k).connection.trace
    (asking display o queue s.callbacks.length outcomes)) =
      [⟨display, Protocol.Core.syncRequest, [.newId o.id], false⟩]
  callbacks : waits.callbacks.length = s.callbacks.length + 1
  signalled : ∀ cell, waits.signalled cell = s.signalled cell

/-- An object that has just been moved to a queue is in use. -/
theorem isValid_of_setQueue {c c' : Connection ObjectData} {o : ObjectRef} {queue : QueueId}
    (moved : c.setQueue o queue = .ok c') : c'.isValid o = true := by
  obtain ⟨entry, usable, _, found, rfl⟩ := Connection.setQueue_ok moved
  obtain ⟨_, live, same⟩ := Client.ObjectTable.current?_some.1 found
  have current : (c.objects.put o.id { entry with queue }).current? o.id o.generation =
      some { entry with queue } := by
    refine Client.ObjectTable.current?_some.2 ⟨?_, live, same⟩
    rw [Client.ObjectTable.get?_put, if_pos rfl]
  simp [Connection.isValid, Connection.current?, Connection.open_of_check usable, current]

theorem info_id {p : Proxy} {h : Handle} (held : p.handle = some h)
    (kept : s.keeps h.connection = true)
    (valid : (s.channel h.connection).connection.isValid h.object = true) :
    (s.info p).id = h.object.id := by
  simp [State.info, State.valid?, held, kept, valid, Option.filter]

theorem roundtrip_phases {s s' : State} {d : Display} {patience : Nat} {act : Act}
    {queue : QueueId} {n : Nat}
    (known : k < s.channels.length) (connected : d.connection = some k) (genuine : d.Genuine k)
    (returned : s.outcome (d.roundtrip patience act queue) = (.ok n, s')) :
    ∃ display o outcomes waits ended, s.Asks k queue display o outcomes waits ∧
      waits.outcome (dispatchUntil patience act k queue s.callbacks.length patience 0) =
        (.ok n, ended) ∧
      s' = ((Proxy.destroy { handle := some ⟨k, o⟩, owning := true }).run ended).2 := by
  obtain ⟨_, _, live, returned⟩ := of_outcome_bind returned
  rw [outcome_displayLive connected] at live
  cases live
  -- The callback.
  obtain ⟨_, s₁, made, returned⟩ := of_outcome_bind returned
  obtain ⟨h, o, held, kept, rfl, created, takes₁, callbacks₁⟩ :=
    create_takes known (fun h held => (genuine h held).1) made
  obtain ⟨placed, s₂, observed, returned⟩ := of_outcome_bind returned
  have moved := of_outcome_observing observed
  cases placed with
  | error cause =>
    obtain ⟨_, _, _, failed⟩ := of_outcome_bind returned
    cases failed
  | ok _ =>
    obtain ⟨setQueue, takes₂, callbacks₂⟩ :=
      setQueueId_takes (h := ⟨k, o⟩) (takes₁.length ▸ known) rfl moved
    have known₂ : k < s₂.channels.length := by
      rw [takes₂.length, takes₁.length]
      exact known
    have kept₂ : s₂.keeps k = true := by
      rw [takes₂.keeps, takes₁.keeps]
      exact kept
    obtain ⟨_, _, got, returned⟩ := of_outcome_bind returned
    cases got
    have number : (s₂.info { handle := some ⟨k, o⟩, owning := true }).id = o.id :=
      info_id (h := ⟨k, o⟩) rfl kept₂ (isValid_of_setQueue setQueue)
    rw [number] at returned
    -- Its handlers.
    obtain ⟨pair, s₃, given, returned⟩ := of_outcome_bind returned
    obtain ⟨takes₃, callbacks₃⟩ := newCallback_takes (s := s₂) (h := ⟨k, o⟩)
      (p := { handle := some ⟨k, o⟩, owning := true }) known₂ rfl kept₂
    rw [outcome_lift] at given
    cases given
    have same : s₂.callbacks = s.callbacks := callbacks₂.trans callbacks₁
    have numbered : ((newCallback { handle := some ⟨k, o⟩, owning := true }).run s₂).1 =
        (.callback { handle := some ⟨k, o⟩, owning := true } s₂.callbacks.length,
          s₂.callbacks.length) := rfl
    rw [numbered, same] at returned
    rw [same] at takes₃ callbacks₃
    generalize ((newCallback { handle := some ⟨k, o⟩, owning := true }).run s₂).2 = s₃
      at takes₃ callbacks₃ returned
    obtain ⟨_, s₄, modified, returned⟩ := of_outcome_bind returned
    rw [outcome_lift, modifyCallback_run] at modified
    obtain ⟨-, armed⟩ := Prod.mk.inj modified
    have takes₄ : s₃.Takes k [] s₄ := armed ▸ .idle rfl rfl rfl rfl
    have known₄ : k < s₄.channels.length := by
      rw [takes₄.length, takes₃.length]
      exact known₂
    -- The request.
    obtain ⟨_, waits, announced, returned⟩ := of_outcome_bind returned
    obtain ⟨rfl, shows⟩ := genuine h held
    obtain ⟨callbacks₅, outcomes, granted, takes₅⟩ := announce_takes known₄ held announced
    have asked := ((takes₁.trans takes₂).trans takes₃).trans takes₄
    rw [asked.connection known] at granted
    -- The wait.
    obtain ⟨dispatched, ended, observed, returned⟩ := of_outcome_bind returned
    have waited := of_outcome_observing observed
    obtain ⟨_, _, dropped, returned⟩ := of_outcome_bind returned
    rw [outcome_lift] at dropped
    cases dropped
    cases dispatched with
    | error cause => cases returned
    | ok count =>
      cases returned
      refine ⟨h.object, o, outcomes, waits, ended,
        ⟨shows, ⟨_, created⟩, ?_, asked.trans takes₅, ?_, ?_, ?_⟩, waited, rfl⟩
      · obtain ⟨_, _, _, _, _, next⟩ := Connection.createObject_ok created
        obtain ⟨_, _, exist, _, _⟩ := Connection.setQueue_ok setQueue
        rwa [next] at exist
      · exact List.filterMap_cons_some granted
      · rw [callbacks₅, ← armed]
        simp [callbacks₃]
      · intro cell
        calc waits.signalled cell = s₄.signalled cell := by rw [State.signalled, callbacks₅]; rfl
          _ = s₃.signalled cell := by rw [← armed]; exact signalled_modify fun _ => rfl
          _ = State.signalled { s with callbacks := s.callbacks ++ [{}] } cell := by
            rw [State.signalled, callbacks₃]; rfl
          _ = s.signalled cell := signalled_append

/-! ## The wait -/

/-- The connection is in use, and nothing waits in a queue of it. -/
def Drained (c : Connection ObjectData) (queue : QueueId) : Prop :=
  c.check = .ok () ∧ c.queues.get? queue = some []

theorem drained_of_next {c : Connection ObjectData} {queue : QueueId}
    (asked : (c.nextEvent queue).value.1 = .ok none) :
    Drained (c.step (.next queue)).after queue := by
  have nobody : (c.step (.next queue)).delivery? = none := by
    simp [Client.Step.delivery?, Connection.step, asked]
  obtain ⟨cause, value⟩ | ⟨events, usable, exist, _⟩ := c.nextEvent_value queue
  · rw [value] at asked
    cases asked
  · obtain ⟨_, _, _, absent⟩ | ⟨_, _, ⟨_, _, _, after⟩ | ⟨d, _, delivered, _⟩⟩ :=
      c.step_next_cases queue
    · rw [absent usable] at exist
      cases exist
    · rw [after]
      refine ⟨usable, ?_⟩
      rw [Client.EventQueues.get?_set, if_pos rfl]
    · rw [nobody] at delivered
      cases delivered

theorem StepM.Hands.known {α : Type} {m : StepM α} {result : Except StepError α}
    (respects : StepM.Respects (courseCalls fun _ => False) m) (known : k < s.channels.length)
    (done : s.outcome m = (result, t)) : k < t.channels.length := by
  obtain ⟨_, follows⟩ := respects.leads s
  rw [done] at follows
  exact Nat.lt_of_lt_of_le known follows.channels

section

variable {patience : Nat} {act : Act} {queue : QueueId} {n count : Nat}

theorem dispatchFrom_ok (leads : act.Leads) {fuel : Nat} (known : k < s.channels.length)
    (done : s.outcome (dispatchFrom act k queue fuel count) = (.ok n, t)) :
    Drained (t.channel k).connection queue := by
  induction fuel generalizing s count with
  | zero => cases done
  | succ fuel ih =>
    obtain ⟨_, _, failed⟩ | ⟨_, asked, ended⟩ | ⟨d, _, goes⟩ :=
      dispatchFrom_succ act k queue fuel count s
    · rw [failed] at done
      cases done
    · rw [ended] at done
      cases done
      rw [State.popped, channel_putChannel known]
      exact drained_of_next asked
    · -- Whatever the handler has done, the queue is asked again.
      rw [goes] at done
      obtain ⟨_, delivered⟩ := deliver_leads leads k d _
      refine ih (Nat.lt_of_lt_of_le ?_ delivered.channels) done
      simpa [State.popped, State.putChannel] using known

theorem dispatchQueue_ok (leads : act.Leads) (known : k < s.channels.length)
    (done : s.outcome (dispatchQueue patience act k queue) = (.ok n, t)) :
    Drained (t.channel k).connection queue := by
  obtain ⟨prepared, s₁, observed, done⟩ := of_outcome_bind done
  have known₁ : k < s₁.channels.length :=
    (prepareAndFlush_respects k patience queue false).known known (of_outcome_observing observed)
  split at done
  · -- Events that wait already are handed out without reading.
    exact dispatchFrom_ok leads known₁ done
  · cases done
  · obtain ⟨_, s₂, waited, done⟩ := of_outcome_bind done
    obtain ⟨_, s₃, read, done⟩ := of_outcome_bind done
    have known₂ : k < s₂.channels.length := (waitReadable_respects k _).known known₁ waited
    have known₃ : k < s₃.channels.length := (readEvents_respects k).known known₂ read
    exact dispatchFrom_ok leads known₃ done

/-- A wait that was not over from the start ends with an empty queue. -/
theorem dispatchUntil_ok (leads : act.Leads) {cell fuel : Nat} (known : k < s.channels.length)
    (done : s.outcome (dispatchUntil patience act k queue cell fuel count) = (.ok n, t)) :
    t.signalled cell = true ∧ (t = s ∨ Drained (t.channel k).connection queue) := by
  induction fuel generalizing s count with
  | zero => cases done
  | succ fuel ih =>
    obtain ⟨_, _, got, done⟩ := of_outcome_bind done
    cases got
    split at done
    next told =>
      cases done
      exact ⟨told, .inl rfl⟩
    next =>
      obtain ⟨more, s₁, dispatched, done⟩ := of_outcome_bind done
      obtain ⟨told, rfl | drained⟩ :=
        ih (StepM.Hands.known (dispatchQueue_respects (R := courseScripts) patience k leads queue)
          known dispatched) done
      · exact ⟨told, .inr (dispatchQueue_ok leads known dispatched)⟩
      · exact ⟨told, .inr drained⟩

end

/-! ## The whole call -/

/-- An owner of an object of an open connection can release it. -/
theorem drop_takes (displayed : s.Displayed) (known : k < s.channels.length)
    (isOpen : (s.channel k).connection.closed = false) (o : ObjectRef) :
    let dropped := ((Proxy.destroy { handle := some ⟨k, o⟩, owning := true }).run s).2
    s.Takes k [.release o] dropped ∧ dropped.callbacks = s.callbacks := by
  intro dropped
  have kept : s.keeps k = true := displayed.keeps known (connectionAt_of_lt known ▸ isOpen)
  obtain ⟨nobody, _⟩ | ⟨h, notes, held, _, _, ran⟩ :=
    destroy_cases s { handle := some ⟨k, o⟩, owning := true }
  · rw [nobody ⟨k, o⟩ rfl rfl] at kept
    cases kept
  · cases held
    unfold dropped
    rw [ran]
    exact ⟨.putChannel known rfl, rfl⟩

theorem signalled_new (s : State) : s.signalled s.callbacks.length = false := by
  simp [State.signalled]

/-- A roundtrip that returns: it asks, waits until it is told that the callback is done, and drops
    the callback.  The course is that of the wait. -/
structure State.Roundtrips (k : ConnectionRef) (queue : QueueId) (display o : ObjectRef)
    (outcomes : List SendOutcome) (course : ConnectionRef → List (Action ObjectData))
    (s waits ended s' : State) : Prop where
  asks : s.Asks k queue display o outcomes waits
  follows : waits.Follows (fun _ => False) waits.callbacks.length course ended
  told : ended.signalled s.callbacks.length = true
  drained : Drained (ended.channel k).connection queue
  drops : ended.Takes k [.release o] s'
  callbacks : s'.callbacks = ended.callbacks

theorem roundtrip_ok {s s' : State} {d : Display} {patience : Nat} {act : Act}
    {queue : QueueId} {n : Nat} (leads : act.Leads) (displayed : s.Displayed)
    (known : k < s.channels.length) (connected : d.connection = some k) (genuine : d.Genuine k)
    (returned : s.outcome (d.roundtrip patience act queue) = (.ok n, s')) :
    ∃ display o outcomes course waits ended,
      State.Roundtrips k queue display o outcomes course s waits ended s' := by
  obtain ⟨display, o, outcomes, waits, ended, asks, waited, rfl⟩ :=
    roundtrip_phases known connected genuine returned
  have known₁ : k < waits.channels.length := asks.takes.length ▸ known
  obtain ⟨told, same | drained⟩ := dispatchUntil_ok leads known₁ waited
  · -- The wait has not begun with the signal.
    rw [same, asks.signalled, signalled_new] at told
    cases told
  · obtain ⟨course, follows⟩ := StepM.Hands.leads (dispatchUntil_respects (R := courseScripts)
      patience k leads queue s.callbacks.length patience 0) waits
    rw [waited] at follows
    obtain ⟨drops, callbacks⟩ := drop_takes (follows.displayed (asks.takes.displayed displayed))
      (Nat.lt_of_lt_of_le known₁ follows.channels) (Connection.open_of_check drained.1) o
    exact ⟨display, o, outcomes, course, waits, ended, asks, follows, told, drained, drops,
      callbacks⟩

/-- What is handed out to a live object was attached to it. -/
theorem data_of_delivery {c : Connection ObjectData} {actions : List (Action ObjectData)}
    {step : Client.Step ObjectData} {d : Delivery ObjectData} (mem : step ∈ c.trace actions)
    (delivered : step.delivery? = some d) :
    ∃ front entry, front ⊆ actions ∧ (c.run front).objects.live? d.event.sender = some entry ∧
      entry.generation = d.event.generation ∧ entry.data = some d.data := by
  obtain ⟨front, action, rest, rfl, rfl⟩ := Connection.exists_of_mem_trace mem
  cases action with
  | next queue =>
    obtain ⟨current, _⟩ := ((c.run front).popped_delivered_iff queue).2 d delivered
    obtain ⟨entry, found, data, _⟩ := Client.ObjectTable.delivery?_some.1 current
    obtain ⟨present, live, same⟩ := Client.ObjectTable.current?_some.1 found
    exact ⟨front, entry, List.subset_append_left _ _,
      Client.ObjectTable.live?_some.2 ⟨present, live⟩, same, data⟩
  | _ => cases delivered

namespace State.Roundtrips

variable {queue : QueueId} {display o : ObjectRef} {outcomes : List SendOutcome}
  {course : ConnectionRef → List (Action ObjectData)} {s waits ended s' : State}
  (call : State.Roundtrips k queue display o outcomes course s waits ended s')

include call

/-- What the connections of the session do in the course of the call. -/
theorem whole : ∃ whole, s.Follows (fun _ => False) s.callbacks.length whole s' ∧
    whole k =
      asking display o queue s.callbacks.length outcomes ++ (course k ++ [.release o]) := by
  have first : s.Follows (fun _ => False) s.callbacks.length
      (fun j => if j = k then asking display o queue s.callbacks.length outcomes else [])
      waits := by
    refine call.asks.takes.follows
      (Nat.le_trans (Nat.le_succ _) (Nat.le_of_eq call.asks.callbacks.symm))
      call.asks.signalled ?_
    intro _ _ _ cell mem
    obtain ⟨_, _, _, rfl⟩ : _ ∧ _ ∧ _ ∧ cell = s.callbacks.length := by simpa [asking] using mem
    exact ⟨Nat.le_refl _, call.asks.callbacks ▸ Nat.lt_succ_self _⟩
  have last : ended.Follows (fun _ => False) ended.callbacks.length
      (fun j => if j = k then [.release o] else []) s' :=
    call.drops.follows (Nat.le_of_eq (congrArg List.length call.callbacks.symm))
      (fun _ => by rw [State.signalled, call.callbacks]; rfl) (by simp)
  exact ⟨_, first.andThen (call.follows.andThen last), by simp⟩

/-- Nothing but the answer to this request ends the wait. -/
theorem answer (sound : s.Sound) :
    ∃ step ∈ (waits.connectionAt k).trace (course k), ∃ d, step.delivery? = some d ∧
      TellsDone d s.callbacks.length ∧ d.event.sender = o.id ∧
      d.event.generation = o.generation := by
  obtain already | never | ⟨j, step, mem, d, delivered, tells⟩ := call.follows.signals call.told
  · rw [call.asks.signalled, signalled_new] at already
    cases already
  · exact never.elim
  · obtain ⟨front, entry, early, live, generation, data⟩ := data_of_delivery mem delivered
    rw [tells.1] at data
    rw [call.asks.takes.connections, ← Connection.run_append] at live
    -- The place is new, so the request itself has attached what the event was handed to.
    obtain ⟨_, lived, _, held⟩ | ⟨p, interface, handlers, attached, sender, same⟩ :=
      Connection.run_data live data
    · exact absurd (sound.cells lived held) (Nat.lt_irrefl _)
    · obtain asked | later := List.mem_append.1 attached
      · split at asked
        next here =>
          subst here
          obtain ⟨rfl, -⟩ : p = o ∧ _ := by simpa [asking] using asked
          exact ⟨step, mem, d, delivered, tells, sender.symm, generation.symm.trans same.symm⟩
        next => cases asked
      · -- Callbacks that were made during the wait have later places.
        have new := (call.follows.attached (early later)).1
        rw [call.asks.callbacks] at new
        exact absurd new (Nat.not_succ_le_self _)

variable (known : k < s.channels.length)

include known

theorem trace : (s.channel k).connection.trace
      (asking display o queue s.callbacks.length outcomes ++ (course k ++ [.release o])) =
    (s.channel k).connection.trace (asking display o queue s.callbacks.length outcomes) ++
      ((waits.connectionAt k).trace (course k) ++ [(ended.connectionAt k).step (.release o)]) := by
  rw [Connection.trace_append, Connection.trace_append, ← connectionAt_of_lt known]
  have asked := call.asks.takes.connections k
  rw [if_pos rfl] at asked
  rw [← asked, ← call.follows.connections]
  rfl

theorem released :
    (s'.channel k).connection = ((ended.channel k).connection.step (.release o)).after := by
  refine call.drops.connection (Nat.lt_of_lt_of_le ?_ call.follows.channels)
  rw [call.asks.takes.length]
  exact known

end State.Roundtrips

/-- A new object has a generation of its own. -/
theorem createObject_new {protocol : Protocol} {past : List (Action ObjectData)}
    {c c' : Connection ObjectData} {factory o : ObjectRef} {interface : Interface}
    {version : UInt32} (reached : c = (Connection.initial protocol).run past)
    (created : c.createObject factory interface version = .ok (o, c')) :
    o.generation = c.objects.nextGeneration ∧ o.id ≠ displayId := by
  obtain ⟨_, _, usable, _, inserted, _⟩ := Connection.createObject_ok created
  obtain ⟨_, _, generation, _⟩ := Client.ObjectTable.insertClient_ok inserted
  have isOpen := Connection.open_of_check usable
  subst reached
  obtain ⟨_, other, _⟩ := (Client.accounted_open isOpen).2.insertClient inserted
  exact ⟨generation, other⟩

/-- A message brings the event that a callback is done, and later the event is handed out to what
    is attached to the callback. -/
def Answered (steps : List (Client.Step ObjectData)) (o : ObjectRef) (cell : Nat) : Prop :=
  ∃ before brings between gives after d, steps = before ++ brings :: between ++ gives :: after ∧
    (∃ h ∈ brings.handled, ∃ queue, h.added? = some (queue, d.event)) ∧
    gives.delivery? = some d ∧ TellsDone d cell ∧
    d.event.sender = o.id ∧ d.event.generation = o.generation

/-- The answer to an earlier request waits in the default queue.  The answer to the next request
    has been sent already. -/
def earlierAnswer : State :=
  let done (id : ObjectId) := (Message.encode id 0 [.uint 0]).bytes.toArray
  let steps : List Step := [.sync "d" "earlier", .serverSend "d" (done 2) [],
    .prepareRead "d" none "i", .readEvents "i", .serverSend "d" (done 3) []]
  ((runSteps 9 1 steps).run (State.start ⟨[]⟩)).2

end Wayland.Session
