import Wayland.Proofs.Session.Outcomes

/-! # Calls on a connection that cannot be used

Whatever an application asks of a connection that has ended, with an error or because it was
closed, is declined: the call fails, and the session stays as it is, so that nothing is created,
sent, queued or handed out.  A call that has nothing wrong with it otherwise fails for the reason
why the connection cannot be used.
-/

namespace Wayland.Session

open Client (Connection QueueId Logged ClientError)

/-! ## What an application may call -/

/-- A call of an application, on its connections, displays and proxies. -/
inductive Command
  | flush (connection : ConnectionRef)
  | marshal (p : Proxy) (opcode : UInt16) (args : List Argument)
  | attach (p : Proxy) (interface : Interface) (handlers : Nat) (data : ObjectData)
  | setQueue (p : Proxy) (queue : EventQueue)
  | resetQueue (p : Proxy)
  | create (factory : Proxy) (interface : Interface)
  | createVersioned (factory : Proxy) (interface : Interface) (version : UInt32)
  | adopt (connection : ConnectionRef) (id : ObjectId) (interface : Interface)
  | createQueue (connection : ConnectionRef)
  | prepareRead (d : Display) (queue : Option EventQueue)
  | dispatchPending (d : Display) (queue : Option EventQueue)
  | dispatch (d : Display) (queue : Option EventQueue)
  | roundtrip (d : Display) (queue : Option EventQueue)
  | sync (d : Display)
  | getRegistry (d : Display)
  | bind (registry : Proxy) (interface : Interface) (name version : UInt32)
      (listener : Option Listener)

namespace Command

/-- Makes the call; `act` runs the handlers of events. -/
def perform (patience : Nat) (act : Act) : Command → StepM Unit
  | .flush connection => do
    let _ ← flushConnection connection
  | .marshal p opcode args => p.marshal opcode args
  | .attach p interface handlers data => do
    let _ ← p.attach interface handlers data
  | .setQueue p queue => p.setQueue queue
  | .resetQueue p => p.setQueueId QueueId.default
  | .create factory interface => do
    let _ ← factory.create interface
  | .createVersioned factory interface version => do
    let _ ← factory.createVersioned interface version
  | .adopt connection id interface => do
    let _ ← adoptObject connection id interface
  | .createQueue connection => do
    let _ ← Session.createQueue connection
  | .prepareRead d queue => do
    let id ← d.taskQueue queue
    Session.prepareRead (← d.live) id
  | .dispatchPending d queue => do
    let id ← d.taskQueue queue
    let _ ← Session.dispatchPending patience act (← d.live) id
  | .dispatch d queue => do
    let id ← d.taskQueue queue
    let _ ← dispatchQueue patience act (← d.live) id
  | .roundtrip d queue => do
    let _ ← d.roundtrip patience act (← d.taskQueue queue)
  | .sync d => do
    let _ ← d.sync
  | .getRegistry d => do
    let _ ← d.getRegistry
  | .bind registry interface name version listener => do
    let _ ← bindGlobal registry interface name version listener

end Command

/-- A display of the connection: its proxy, as long as it stands for something, belongs to the same
    connection. -/
structure Display.Of (d : Display) (connection : ConnectionRef) : Prop where
  connected : d.connection = some connection
  proxy : ∀ h, d.proxy.handle = some h → h.connection = connection

/-- A queue of the connection that has not been destroyed. -/
def EventQueue.Of (queue : EventQueue) (connection : ConnectionRef) : Prop :=
  queue.connection = connection ∧ queue.id.isSome = true

namespace Command

/-- The connection that a call is about. -/
def On (connection : ConnectionRef) : Command → Prop
  | .flush c | .adopt c _ _ | .createQueue c => c = connection
  | .marshal p _ _ | .attach p _ _ _ | .setQueue p _ | .resetQueue p | .create p _
  | .createVersioned p _ _ | .bind p _ _ _ _ => ∃ h, p.handle = some h ∧ h.connection = connection
  | .prepareRead d _ | .dispatchPending d _ | .dispatch d _ | .roundtrip d _ | .sync d
  | .getRegistry d => d.Of connection

/-- Whether the proxies and queues of a call are in use and its listener is one for its object. -/
def Valid (s : State) (connection : ConnectionRef) : Command → Prop
  | .flush _ | .adopt _ _ _ | .createQueue _ => True
  | .marshal p _ _ | .resetQueue p | .create p _ | .createVersioned p _ _ | .bind p _ _ _ _ =>
    (s.valid? p).isSome = true
  | .attach p interface handlers _ =>
    ∃ h, s.valid? p = some h ∧ interface.same h.object.interface = true ∧
      handlers = h.object.interface.events.length
  | .setQueue p queue => (s.valid? p).isSome = true ∧ queue.Of connection
  | .prepareRead _ queue | .dispatchPending _ queue | .dispatch _ queue =>
    ∀ q ∈ queue, q.Of connection
  | .roundtrip d queue => (s.valid? d.proxy).isSome = true ∧ ∀ q ∈ queue, q.Of connection
  | .sync d | .getRegistry d => (s.valid? d.proxy).isSome = true

end Command

/-! ## Calls that are declined -/

/-- The call fails and the session stays as it is.  If the call is valid, it fails for the given
    reason. -/
def State.Declines {α : Type} (s : State) (m : StepM α) (valid : Prop) (cause : StepError) : Prop :=
  ∃ actual, s.outcome m = (.error actual, s) ∧ (valid → actual = cause)

section

variable {α β : Type} {s : State} {m : StepM α} {valid valid' : Prop} {cause other : StepError}
  {connection : ConnectionRef} {reason : ClientError}

theorem State.Declines.mono (declined : s.Declines m valid cause) (weaker : valid' → valid) :
    s.Declines m valid' cause := by
  obtain ⟨actual, outcome, agrees⟩ := declined
  exact ⟨actual, outcome, agrees ∘ weaker⟩

theorem State.Declines.bind (declined : s.Declines m valid cause) (f : α → StepM β) :
    s.Declines (m >>= f) valid cause := by
  obtain ⟨actual, outcome, agrees⟩ := declined
  exact ⟨actual, outcome_bind_error outcome, agrees⟩

theorem declines_throw (invalid : ¬ valid) : s.Declines (throw other : StepM α) valid cause :=
  ⟨other, outcome_throw other, fun isValid => absurd isValid invalid⟩

theorem declines_after {f : α → StepM β} {a : α} (done : s.outcome m = (.ok a, s))
    (declined : s.Declines (f a) valid cause) : s.Declines (m >>= f) valid cause := by
  obtain ⟨actual, outcome, agrees⟩ := declined
  exact ⟨actual, (outcome_bind_ok done).trans outcome, agrees⟩

/-- What a call does with the object of a proxy is declined, or there is no such object. -/
theorem declines_live {p : Proxy} {h : Handle} {f : Handle → StepM α} (held : p.handle = some h)
    (declined : s.Declines (f h) valid cause) :
    s.Declines (p.live >>= f) (valid ∧ s.keeps h.connection = true) cause := by
  have outcome := outcome_live (s := s) p
  rw [held] at outcome
  dsimp only at outcome
  split at outcome
  · exact (declines_after outcome declined).mono And.left
  next gone =>
    exact ⟨_, outcome_bind_error outcome, fun isValid => absurd isValid.2 gone⟩

theorem tryChannel_declines {f : Channel → Logged (Except ClientError α × Channel)}
    (idle : f (s.channel connection) = pure (.error reason, s.channel connection)) :
    s.Declines (tryChannel connection f) True (.client reason) := by
  refine ⟨_, ?_, fun _ => rfl⟩
  rw [outcome_tryChannel, idle]
  simp

theorem tryConnection_declines
    {f : Connection ObjectData → Logged (Except ClientError (α × Connection ObjectData))}
    (idle : f (s.channel connection).connection = pure (.error reason)) :
    s.Declines (tryConnection connection f) True (.client reason) := by
  refine ⟨_, ?_, fun _ => rfl⟩
  rw [outcome_tryConnection, idle]
  simp

theorem valid?_some {p : Proxy} {h : Handle} (valid : s.valid? p = some h) :
    p.handle = some h ∧ s.keeps h.connection = true ∧
      (s.channel h.connection).connection.isValid h.object = true := by
  unfold State.valid? at valid
  simpa [Option.filter_eq_some_iff] using valid

end

section

variable {s : State} {connection : ConnectionRef} {reason : ClientError}

/-- The connection cannot be used any more. -/
def State.Refuses (s : State) (connection : ConnectionRef) (reason : ClientError) : Prop :=
  (s.channel connection).connection.check = .error reason

theorem State.Refuses.cases (refuses : s.Refuses connection reason) :
    reason = .disconnected ∨ ∃ error, reason = .fatal error := by
  unfold State.Refuses Connection.check at refuses
  split at refuses
  · cases refuses
    exact .inl rfl
  · split at refuses <;> cases refuses
    exact .inr ⟨_, rfl⟩

/-! ### Connections and queues -/

theorem flushConnection_declines (refuses : s.Refuses connection reason) :
    s.Declines (flushConnection connection) True (.client reason) := by
  unfold State.Refuses at refuses
  apply tryChannel_declines
  simp [Channel.flush, Connection.flush, refuses, Link.carry]

theorem createQueue_declines (refuses : s.Refuses connection reason) :
    s.Declines (createQueue connection) True (.client reason) := by
  unfold State.Refuses at refuses
  refine (tryConnection_declines ?_).bind _
  simp [Connection.createQueue, refuses]

theorem adoptObject_declines (refuses : s.Refuses connection reason) (id : ObjectId)
    (interface : Interface) :
    s.Declines (adoptObject connection id interface) True (.client reason) := by
  unfold State.Refuses at refuses
  refine (tryConnection_declines ?_).bind _
  simp [Connection.adoptObject, refuses, bind, Except.bind]

theorem prepareRead_declines (refuses : s.Refuses connection reason) (queue : QueueId) :
    s.Declines (prepareRead connection queue) True (.client reason) := by
  unfold State.Refuses at refuses
  apply tryConnection_declines
  simp [Connection.prepareRead, refuses, bind, Except.bind, Except.map]

theorem dispatchFrom_declines (refuses : s.Refuses connection reason) (act : Act) (queue : QueueId)
    (fuel count : Nat) :
    s.Declines (dispatchFrom act connection queue fuel count) (0 < fuel) (.client reason) := by
  cases fuel with
  | zero => exact declines_throw (Nat.lt_irrefl 0)
  | succ fuel =>
    unfold State.Refuses at refuses
    have next : ((onConnection connection (·.nextEvent queue)).run s) =
        (.error reason, s) := by
      rw [onConnection_run]
      simp only [Connection.nextEvent, refuses, Logged.value_pure, Logged.notes_pure]
      exact congrArg (Prod.mk _) (putChannel_same s connection)
    unfold dispatchFrom
    refine declines_after (a := .error reason) (by rw [outcome_lift, next]) ?_
    exact State.Declines.bind ⟨_, rfl, fun _ => rfl⟩ _

section

variable (patience : Nat)

theorem dispatchPending_declines (refuses : s.Refuses connection reason) (act : Act)
    (queue : QueueId) :
    s.Declines (dispatchPending patience act connection queue) True (.client reason) :=
  (dispatchFrom_declines refuses act queue (patience + 1) 0).mono fun _ => Nat.succ_pos patience

theorem dispatchQueue_declines (refuses : s.Refuses connection reason) (act : Act)
    (queue : QueueId) :
    s.Declines (dispatchQueue patience act connection queue) True (.client reason) := by
  have prepared : s.Declines (prepareAndFlush patience connection queue false) True
      (.client reason) := by
    unfold prepareAndFlush
    exact (prepareRead_declines refuses queue).bind _
  obtain ⟨_, outcome, agrees⟩ := prepared
  obtain rfl := agrees trivial
  unfold dispatchQueue
  refine declines_after (a := .error (.client reason)) (by rw [outcome_observing, outcome]) ?_
  -- Pending events would be no reason to fail.
  obtain rfl | ⟨_, rfl⟩ := refuses.cases <;> exact ⟨_, outcome_throw _, fun _ => rfl⟩

end

/-! ### Proxies -/

theorem Proxy.marshal_declines {p : Proxy} {h : Handle} (held : p.handle = some h)
    (refuses : s.Refuses h.connection reason) (opcode : UInt16) (args : List Argument) :
    s.Declines (p.marshal opcode args) (s.keeps h.connection = true) (.client reason) := by
  unfold State.Refuses at refuses
  refine (declines_live held (tryChannel_declines ?_)).mono fun kept => ⟨trivial, kept⟩
  simp [Channel.sendRequest, Connection.sendRequest, refuses, Link.carry]

theorem Proxy.setQueueId_declines {p : Proxy} {h : Handle} (held : p.handle = some h)
    (refuses : s.Refuses h.connection reason) (queue : QueueId) :
    s.Declines (p.setQueueId queue) (s.keeps h.connection = true) (.client reason) := by
  unfold State.Refuses at refuses
  refine (declines_live held (tryConnection_declines ?_)).mono fun kept => ⟨trivial, kept⟩
  simp [Connection.setQueue, refuses, bind, Except.bind, Except.map]

theorem Proxy.createVersioned_declines {p : Proxy} {h : Handle} (held : p.handle = some h)
    (refuses : s.Refuses h.connection reason) (interface : Interface) (version : UInt32) :
    s.Declines (p.createVersioned interface version) (s.keeps h.connection = true)
      (.client reason) := by
  unfold State.Refuses at refuses
  refine (declines_live held ((tryConnection_declines ?_).bind _)).mono fun kept => ⟨trivial, kept⟩
  simp [Connection.createObject, refuses, bind, Except.bind]

theorem Proxy.attach_declines {p : Proxy} {h : Handle} (held : p.handle = some h)
    (refuses : s.Refuses h.connection reason) (interface : Interface) (handlers : Nat)
    (data : ObjectData) :
    s.Declines (p.attach interface handlers data)
      ((interface.same h.object.interface = true ∧
        handlers = h.object.interface.events.length) ∧ s.keeps h.connection = true)
      (.client reason) := by
  unfold State.Refuses at refuses
  apply declines_live held
  by_cases fits : interface.same h.object.interface = true ∧
      handlers = h.object.interface.events.length
  · refine (tryConnection_declines ?_).mono fun _ => trivial
    simp [Connection.attach, fits, refuses]
  · -- The listener is refused before the connection is looked at.
    have refused : s.Declines (tryConnection h.connection fun c =>
        c.attach h.object interface handlers data) True
        (.client (.listenerMismatch interface.name h.object.interface.name)) := by
      apply tryConnection_declines
      unfold Connection.attach
      rw [if_pos]
      simp only [Bool.or_eq_true, Bool.not_eq_true', decide_eq_true_eq]
      exact (Decidable.not_and_iff_or_not.1 fits).imp_left Bool.eq_false_iff.2
    obtain ⟨actual, outcome, _⟩ := refused
    exact ⟨actual, outcome, fun isValid => absurd isValid fits⟩

theorem Proxy.setQueue_declines {p : Proxy} {h : Handle} (held : p.handle = some h)
    (refuses : s.Refuses h.connection reason) (queue : EventQueue) :
    s.Declines (p.setQueue queue) (queue.Of h.connection ∧ s.keeps h.connection = true)
      (.client reason) := by
  unfold Proxy.setQueue
  cases number : queue.id with
  | none => exact declines_throw fun isValid => by simpa [number] using isValid.1.2
  | some id =>
    have declined : s.Declines (do
        if h.connection ≠ queue.connection then throw (.client .invalidQueue)
        p.setQueueId id) (queue.Of h.connection ∧ s.keeps h.connection = true)
        (.client reason) := by
      by_cases same : h.connection = queue.connection
      · rw [if_neg (by simpa using same)]
        exact (p.setQueueId_declines held refuses id).mono And.right
      · rw [if_pos same]
        exact (declines_throw fun isValid => same isValid.1.1.symm).bind _
    exact (declines_live held declined).mono fun isValid => ⟨isValid, isValid.2⟩

/-- The factory may have nothing to stand for. -/
theorem Proxy.create_declines {p : Proxy}
    (belongs : ∀ h, p.handle = some h → h.connection = connection)
    (refuses : s.Refuses connection reason) (interface : Interface) :
    s.Declines (p.create interface) ((s.valid? p).isSome = true) (.client reason) := by
  unfold Proxy.create
  refine declines_after outcome_get ?_
  cases valid : s.valid? p with
  | none => exact declines_throw (by simp)
  | some h =>
    obtain ⟨held, kept, _⟩ := valid?_some valid
    rw [← belongs h held] at refuses
    exact (p.createVersioned_declines held refuses interface h.object.version).mono fun _ => kept

/-! ### Displays -/

theorem outcome_displayLive {d : Display} (connected : d.connection = some connection) :
    s.outcome d.live = (.ok connection, s) := by
  unfold Display.live
  rw [connected]
  rfl

theorem outcome_taskQueue {d : Display} (connected : d.connection = some connection)
    (queue : Option EventQueue) :
    (∃ id, s.outcome (d.taskQueue queue) = (.ok id, s)) ∨
      (∃ cause, s.outcome (d.taskQueue queue) = (.error cause, s)) ∧
        ¬ ∀ q ∈ queue, q.Of connection := by
  have live := outcome_displayLive (s := s) connected
  cases queue with
  | none => exact .inl ⟨_, outcome_bind_ok live⟩
  | some q =>
    unfold Display.taskQueue Display.queueId
    dsimp only
    rw [outcome_bind_ok live]
    cases number : q.id with
    | none => exact .inr ⟨⟨_, outcome_throw _⟩, by simp [EventQueue.Of, number]⟩
    | some id =>
      dsimp only
      split
      · exact .inl ⟨id, outcome_pure id⟩
      next other => exact .inr ⟨⟨_, outcome_throw _⟩, by simp [EventQueue.Of, other]⟩

theorem declines_taskQueue {d : Display} {α : Type} {f : QueueId → StepM α} {valid : Prop}
    {cause : StepError} (connected : d.connection = some connection) (queue : Option EventQueue)
    (declined : ∀ id, s.Declines (f id) valid cause) :
    s.Declines (d.taskQueue queue >>= f) (valid ∧ ∀ q ∈ queue, q.Of connection) cause := by
  obtain ⟨id, done⟩ | ⟨⟨actual, failed⟩, invalid⟩ := outcome_taskQueue (s := s) connected queue
  · exact (declines_after done (declined id)).mono And.left
  · exact ⟨actual, outcome_bind_error failed, fun isValid => absurd isValid.2 invalid⟩

theorem Display.roundtrip_declines {d : Display} (of : d.Of connection)
    (refuses : s.Refuses connection reason) (patience : Nat) (act : Act) (queue : QueueId) :
    s.Declines (d.roundtrip patience act queue) ((s.valid? d.proxy).isSome = true)
      (.client reason) := by
  unfold Display.roundtrip
  exact declines_after (outcome_displayLive of.connected)
    ((d.proxy.create_declines of.proxy refuses _).bind _)

theorem Display.sync_declines {d : Display} (of : d.Of connection)
    (refuses : s.Refuses connection reason) :
    s.Declines d.sync ((s.valid? d.proxy).isSome = true) (.client reason) := by
  unfold Display.sync
  exact declines_after (outcome_displayLive of.connected)
    ((d.proxy.create_declines of.proxy refuses _).bind _)

theorem Display.getRegistry_declines {d : Display} (of : d.Of connection)
    (refuses : s.Refuses connection reason) :
    s.Declines d.getRegistry ((s.valid? d.proxy).isSome = true) (.client reason) := by
  unfold Display.getRegistry
  exact declines_after (outcome_displayLive of.connected)
    ((d.proxy.create_declines of.proxy refuses _).bind _)

end

/-- Whatever an application calls on a connection that cannot be used. -/
theorem Command.refused {s : State} {connection : ConnectionRef} {reason : ClientError}
    (refuses : s.Refuses connection reason) (patience : Nat) (act : Act) (command : Command)
    (on : command.On connection) :
    s.Declines (command.perform patience act) (command.Valid s connection) (.client reason) := by
  -- A proxy that is in use has a handle, and its connection is alive.
  have kept {p : Proxy} {h : Handle} (held : p.handle = some h)
      (valid : (s.valid? p).isSome = true) : s.keeps h.connection = true := by
    obtain ⟨h', found⟩ := Option.isSome_iff_exists.1 valid
    obtain ⟨held', kept, _⟩ := valid?_some found
    rw [held] at held'
    cases held'
    exact kept
  cases command with
  | flush c =>
    obtain rfl : c = connection := on
    exact (flushConnection_declines refuses).bind _
  | marshal p opcode args =>
    obtain ⟨h, held, rfl⟩ := on
    exact (p.marshal_declines held refuses opcode args).mono (kept held)
  | attach p interface handlers data =>
    obtain ⟨h, held, rfl⟩ := on
    refine ((p.attach_declines held refuses interface handlers data).bind _).mono ?_
    rintro ⟨h', valid, fits⟩
    obtain ⟨held', kept, _⟩ := valid?_some valid
    rw [held] at held'
    cases held'
    exact ⟨fits, kept⟩
  | setQueue p queue =>
    obtain ⟨h, held, rfl⟩ := on
    exact (p.setQueue_declines held refuses queue).mono fun valid => ⟨valid.2, kept held valid.1⟩
  | resetQueue p =>
    obtain ⟨h, held, rfl⟩ := on
    exact (p.setQueueId_declines held refuses _).mono (kept held)
  | create factory interface =>
    obtain ⟨h, held, rfl⟩ := on
    refine (factory.create_declines ?_ refuses interface).bind _
    intro h' held'
    rw [held] at held'
    cases held'
    rfl
  | createVersioned factory interface version =>
    obtain ⟨h, held, rfl⟩ := on
    exact ((factory.createVersioned_declines held refuses interface version).bind _).mono
      (kept held)
  | adopt c id interface =>
    obtain rfl : c = connection := on
    exact (adoptObject_declines refuses id interface).bind _
  | createQueue c =>
    obtain rfl : c = connection := on
    exact (createQueue_declines refuses).bind _
  | prepareRead d queue =>
    have of : d.Of connection := on
    refine (declines_taskQueue of.connected queue fun id => ?_).mono fun valid => ⟨trivial, valid⟩
    exact declines_after (outcome_displayLive of.connected) (prepareRead_declines refuses id)
  | dispatchPending d queue =>
    have of : d.Of connection := on
    refine (declines_taskQueue of.connected queue fun id => ?_).mono fun valid => ⟨trivial, valid⟩
    exact declines_after (outcome_displayLive of.connected)
      ((dispatchPending_declines patience refuses act id).bind _)
  | dispatch d queue =>
    have of : d.Of connection := on
    refine (declines_taskQueue of.connected queue fun id => ?_).mono fun valid => ⟨trivial, valid⟩
    exact declines_after (outcome_displayLive of.connected)
      ((dispatchQueue_declines patience refuses act id).bind _)
  | roundtrip d queue =>
    have of : d.Of connection := on
    refine declines_taskQueue of.connected queue fun id => ?_
    exact (d.roundtrip_declines of refuses patience act id).bind _
  | sync d => exact (d.sync_declines on refuses).bind _
  | getRegistry d => exact (d.getRegistry_declines on refuses).bind _
  | bind registry interface name version listener =>
    obtain ⟨h, held, rfl⟩ := on
    unfold perform bindGlobal
    refine State.Declines.mono ?_ (kept held)
    exact ((registry.createVersioned_declines held refuses interface version).bind _).bind _

end Wayland.Session
