import Wayland.Client.Incoming
import Wayland.Proofs.Wire.RoundTrip

/-! # What operations on a connection do

For each operation, what its success says: which checks were passed and what the connection is
afterwards.  Proofs about runs take operations apart with these lemmas and never unfold them.
-/

namespace Wayland.Client.Connection

variable {δ : Type} {c c' : Connection δ} {o : ObjectRef} {interface : Interface}
  {version : UInt32} {queue : QueueId}

theorem after_check {α : Type} {f : Unit → Except ClientError α} {result : α}
    (done : (c.check >>= f) = .ok result) : c.check = .ok () ∧ f () = .ok result := by
  cases usable : c.check with
  | error cause => simp [usable, bind, Except.bind] at done
  | ok _ => exact ⟨rfl, by simpa [usable, bind, Except.bind] using done⟩

theorem check_of_closed (closed : c.closed = true) : c.check = .error .disconnected := by
  simp [check, closed]

theorem open_of_check (usable : c.check = .ok ()) : c.closed = false := by
  cases closed : c.closed with
  | false => rfl
  | true =>
    rw [check_of_closed closed] at usable
    cases usable

/-! ## Sending -/

/-- The outbox gets what `Outbox.flush` leaves; of the rest, only the error may change. -/
theorem flushOutbox_value (c : Connection δ) (outcomes : List SendOutcome) :
    ∃ result error, (c.flushOutbox outcomes).value =
        (result, (c.outbox.flush outcomes).transfers,
          { c with outbox := (c.outbox.flush outcomes).outbox, error }) ∧
      ((∃ count, result = .ok count) ↔ (c.outbox.flush outcomes).stop = none) := by
  unfold flushOutbox
  dsimp only
  split
  next stop => exact ⟨_, c.error, rfl, by simp [stop]⟩
  next stop => exact ⟨_, c.error, rfl, by simp [stop]⟩
  next stop => exact ⟨_, c.error, rfl, by simp [stop]⟩
  next fault stop =>
    rw [Logged.value_bind, Logged.value_pure]
    -- `fail` keeps an error that is already there.
    unfold fail
    dsimp only
    split
    · exact ⟨_, c.error, rfl, by simp [stop]⟩
    · exact ⟨_, _, rfl, by simp [stop]⟩

theorem queueRequest_ok {opcode : UInt16} {args : List Argument}
    (queued : (c.queueRequest o opcode args).value = .ok c') :
    ∃ entry, c.current? o = some entry ∧
      c' = { c with
             outbox := c.outbox.append (Message.encode o.id opcode args)
             objects := (args.filterMap Argument.newId?).foldl ObjectTable.markAnnounced
               c.objects } := by
  unfold queueRequest at queued
  split at queued
  · cases queued
  next entry found =>
    split at queued
    · cases queued
    next spec _ =>
      split at queued
      · cases queued
      · split at queued
        · cases queued
        · rw [Logged.value_bind] at queued
          split at queued
          · cases queued
          next packet written =>
            obtain ⟨_, _, rfl⟩ := Message.marshal_ok_iff.1 written
            cases queued
            exact ⟨entry, found, rfl⟩

/-- The end of a request: a full outbox is flushed. -/
theorem flushIfFull_value (c : Connection δ) (outcomes : List SendOutcome) :
    ∃ used error,
      (if c.outbox.bytes.size < Outbox.flushThreshold then pure (.ok (), [], c)
        else do
          let (result, transfers, c) ← c.flushOutbox outcomes
          match result with
          | .ok _ | .error .wouldBlock => pure ()
          | .error cause => Logged.note (.earlyFlushFailed cause)
          return (.ok (), transfers, c) :
        Logged (Except ClientError Unit × List Transfer × Connection δ)).value =
      (.ok (), (c.outbox.flush used).transfers,
        { c with outbox := (c.outbox.flush used).outbox, error }) := by
  split
  · -- Not to flush is to flush without an answer from the socket.
    exact ⟨[], c.error, rfl⟩
  · obtain ⟨result, error, value, _⟩ := flushOutbox_value c outcomes
    refine ⟨outcomes, error, ?_⟩
    rw [Logged.value_bind, value]
    dsimp only
    split <;> rfl

/-- A request that is refused changes nothing.  One that is accepted is added to the outbox, the
    numbers of new objects in it are announced, after a `final` one its object is released, and
    then the outbox may be flushed. -/
theorem sendRequest_value (c : Connection δ) (o : ObjectRef) (opcode : UInt16)
    (args : List Argument) (final : Bool) (outcomes : List SendOutcome) :
    (∃ cause, (c.sendRequest o opcode args final outcomes).value = (.error cause, [], c)) ∨
    ∃ entry announced objects used error,
      c.check = .ok () ∧ c.current? o = some entry ∧
      announced = (args.filterMap Argument.newId?).foldl ObjectTable.markAnnounced c.objects ∧
      objects = (if final then (announced.release o.id o.generation).value else announced) ∧
      (c.sendRequest o opcode args final outcomes).value =
        (.ok (), ((c.outbox.append (Message.encode o.id opcode args)).flush used).transfers,
          { c with
            outbox := ((c.outbox.append (Message.encode o.id opcode args)).flush used).outbox
            objects, error }) := by
  unfold sendRequest
  cases usable : c.check with
  | error cause => exact .inl ⟨cause, rfl⟩
  | ok _ =>
    rw [Logged.value_bind]
    cases queued : (c.queueRequest o opcode args).value with
    | error cause => exact .inl ⟨cause, rfl⟩
    | ok c' =>
      right
      obtain ⟨entry, found, rfl⟩ := queueRequest_ok queued
      cases final
      all_goals
        obtain ⟨used, error, value⟩ := flushIfFull_value _ outcomes
        exact ⟨entry, _, _, used, error, rfl, found, rfl, rfl, value⟩

theorem flush_value (c : Connection δ) (outcomes : List SendOutcome) :
    (∃ cause, (c.flush outcomes).value = (.error cause, [], c)) ∨
    c.check = .ok () ∧ ∃ result error, (c.flush outcomes).value =
        (result, (c.outbox.flush outcomes).transfers,
          { c with outbox := (c.outbox.flush outcomes).outbox, error }) ∧
      ((∃ count, result = .ok count) ↔ (c.outbox.flush outcomes).stop = none) := by
  unfold flush
  split
  next cause _ => exact .inl ⟨cause, rfl⟩
  next usable => exact .inr ⟨usable, flushOutbox_value c outcomes⟩

/-- Closing is a last flush, after which everything is forgotten. -/
theorem close_value (c : Connection δ) (outcomes : List SendOutcome) :
    c.closed = true ∧ (c.close outcomes).value = ([], c) ∨
    c.closed = false ∧ ∃ error, (c.close outcomes).value = ((c.outbox.flush outcomes).transfers,
      { c with
        outbox := (c.outbox.flush outcomes).outbox, error, closed := true
        objects := c.objects.clear, queues := c.queues.clear }) := by
  unfold close
  split
  next closed => exact .inl ⟨closed, rfl⟩
  next isOpen =>
    obtain ⟨result, error, value, _⟩ := flushOutbox_value c outcomes
    refine .inr ⟨by simpa using isOpen, error, ?_⟩
    rw [Logged.value_bind, value]
    dsimp only
    split <;> rfl

/-! ## Objects -/

theorem createObject_ok {factory : ObjectRef}
    (created : c.createObject factory interface version = .ok (o, c')) :
    ∃ entry objects, c.check = .ok () ∧ c.current? factory = some entry ∧
      c.objects.insertClient interface version entry.queue = .ok (o.id, o.generation, objects) ∧
      c' = { c with objects } := by
  unfold createObject at created
  obtain ⟨usable, created⟩ := after_check created
  split at created
  · cases created
  next entry found =>
    split at created
    · cases created
    next id generation objects inserted =>
      cases created
      exact ⟨entry, objects, usable, found, inserted, rfl⟩

theorem adoptObject_ok {id : ObjectId} (adopted : c.adoptObject id interface = .ok (o, c')) :
    ∃ entry, c.check = .ok () ∧ c.objects.live? id = some entry ∧ entry.owned = false ∧
      o = { id, generation := entry.generation, interface, version := entry.version } ∧
      c' = { c with objects := c.objects.put id { entry with owned := true } } := by
  unfold adoptObject at adopted
  obtain ⟨usable, adopted⟩ := after_check adopted
  split at adopted
  · cases adopted
  next entry found =>
    split at adopted
    · cases adopted
    · split at adopted
      · cases adopted
      next free =>
        cases adopted
        exact ⟨entry, usable, found, by simpa using free, rfl, rfl⟩

theorem attach_ok {handlers : Nat} {data : δ} {first : Bool}
    (attached : (c.attach o interface handlers data).value = .ok (first, c')) :
    ∃ entry, c.check = .ok () ∧ c.current? o = some entry ∧
      (entry.data.isSome = true ∧ first = false ∧ c' = c ∨
        entry.data = none ∧ first = true ∧
          c' = { c with objects := c.objects.put o.id { entry with data := some data } }) := by
  unfold attach at attached
  split at attached
  · cases attached
  · split at attached
    · cases attached
    next usable =>
      split at attached
      · cases attached
      next entry found =>
        split at attached
        next taken =>
          cases attached
          exact ⟨entry, usable, found, .inl ⟨taken, rfl, rfl⟩⟩
        next free =>
          cases attached
          exact ⟨entry, usable, found, .inr ⟨by simpa using free, rfl, rfl⟩⟩

/-- A holder learns the interface that it asked for. -/
theorem createObject_interface {factory : ObjectRef}
    (created : c.createObject factory interface version = .ok (o, c')) :
    o.interface = interface := by
  unfold createObject at created
  obtain ⟨_, created⟩ := after_check created
  split at created
  · cases created
  · split at created
    · cases created
    · cases created
      rfl

theorem adoptObject_same {id : ObjectId} {entry : Entry δ}
    (adopted : c.adoptObject id interface = .ok (o, c'))
    (found : c.objects.live? id = some entry) : entry.interface.same interface = true := by
  unfold adoptObject at adopted
  obtain ⟨_, adopted⟩ := after_check adopted
  rw [found] at adopted
  dsimp only at adopted
  split at adopted
  · cases adopted
  next same => simpa using same

/-- Only what was made for the holder's table can be attached. -/
theorem attach_matches {handlers : Nat} {data : δ} {first : Bool}
    (attached : (c.attach o interface handlers data).value = .ok (first, c')) :
    interface.same o.interface = true ∧ handlers = o.interface.events.length := by
  unfold attach at attached
  split at attached
  · cases attached
  next fits => simpa using fits

theorem setQueue_ok (moved : c.setQueue o queue = .ok c') :
    ∃ entry, c.check = .ok () ∧ c.queues.contains queue = true ∧ c.current? o = some entry ∧
      c' = { c with objects := c.objects.put o.id { entry with queue } } := by
  unfold setQueue at moved
  obtain ⟨usable, moved⟩ := after_check moved
  split at moved
  · cases moved
  next exist =>
    split at moved
    · cases moved
    next entry found =>
      cases moved
      exact ⟨entry, usable, by simpa using exist, found, rfl⟩

/-! ## Queues and readers -/

theorem createQueue_ok (created : c.createQueue.value = .ok (queue, c')) :
    c.check = .ok () ∧ queue = c.queues.create.1 ∧ c' = { c with queues := c.queues.create.2 } := by
  unfold createQueue at created
  split at created
  · cases created
  next usable =>
    cases created
    exact ⟨usable, rfl, rfl⟩

theorem destroyQueue_value (c : Connection δ) (queue : QueueId) :
    (c.destroyQueue queue).value =
      { c with
        objects := c.objects.reassignQueue queue QueueId.default
        queues := (c.queues.remove queue).2 } := by
  unfold destroyQueue
  dsimp only
  split <;> split <;> rfl

theorem prepareRead_ok (declared : c.prepareRead queue = .ok c') :
    c.check = .ok () ∧ c.queues.get? queue = some [] ∧ c' = { c with gate := c.gate.declare } := by
  unfold prepareRead at declared
  obtain ⟨usable, declared⟩ := after_check declared
  split at declared
  · cases declared
  next empty =>
    cases declared
    exact ⟨usable, empty, rfl⟩
  · cases declared

theorem cancelRead_eq (c : Connection δ) : ∃ gate, c.cancelRead = { c with gate } := by
  unfold cancelRead
  split
  · exact ⟨_, rfl⟩
  · exact ⟨_, rfl⟩

theorem firstDelivery_suffix (objects : ObjectTable δ) (events : List QueuedEvent) :
    (firstDelivery objects events).value.2 <:+ events := by
  induction events with
  | nil => exact List.suffix_rfl
  | cons event events ih =>
    have later : (firstDelivery objects events).value.2 <:+ event :: events :=
      ih.trans (List.suffix_cons event events)
    unfold firstDelivery
    split
    · exact later
    · split
      · exact later
      · split
        · exact later
        · exact List.suffix_cons event events

theorem nextEvent_value (c : Connection δ) (queue : QueueId) :
    (∃ cause, (c.nextEvent queue).value = (.error cause, c)) ∨
    ∃ events, c.check = .ok () ∧ c.queues.get? queue = some events ∧
      (c.nextEvent queue).value = (.ok (firstDelivery c.objects events).value.1,
        { c with queues := c.queues.set queue (firstDelivery c.objects events).value.2 }) := by
  unfold nextEvent
  split
  next cause _ => exact .inl ⟨cause, rfl⟩
  next usable =>
    split
    · exact .inl ⟨_, rfl⟩
    next events exist => exact .inr ⟨events, usable, exist, rfl⟩

/-! ## Reading

What arrives never touches what is to be sent. -/

/-- What handling messages leaves alone. -/
structure Kept (c c' : Connection δ) : Prop where
  protocol : c'.protocol = c.protocol
  outbox : c'.outbox = c.outbox
  gate : c'.gate = c.gate
  closed : c'.closed = c.closed

theorem Kept.refl : Kept c c := ⟨rfl, rfl, rfl, rfl⟩

theorem Kept.trans {c'' : Connection δ} (first : Kept c c') (second : Kept c' c'') : Kept c c'' :=
  ⟨second.protocol.trans first.protocol, second.outbox.trans first.outbox,
    second.gate.trans first.gate, second.closed.trans first.closed⟩

theorem fail_kept (c : Connection δ) (error : FatalError) : Kept c (c.fail error).value := by
  unfold fail
  dsimp only
  split
  · exact .refl
  · exact ⟨rfl, rfl, rfl, rfl⟩

theorem handleDisplayEvent_kept (c : Connection δ) (opcode : UInt16) (body : Wire.Bytes) :
    Kept c (c.handleDisplayEvent opcode body).value.2 := by
  unfold handleDisplayEvent
  split
  · exact .refl
  next spec _ =>
    split
    next result fds _ =>
    have taken : Kept c { c with inbox := { c.inbox with fds } } := ⟨rfl, rfl, rfl, rfl⟩
    dsimp only
    split
    · exact taken
    · split
      · exact taken.trans (fail_kept _ _)
      · exact ⟨rfl, rfl, rfl, rfl⟩
      · exact taken

theorem handleObjectEvent_kept (c : Connection δ) (id : ObjectId) (opcode : UInt16)
    (body : Wire.Bytes) : Kept c (c.handleObjectEvent id opcode body).value.2 := by
  unfold handleObjectEvent
  split
  · exact .refl
  · dsimp only
    split
    · exact .refl
    · split
      · exact ⟨rfl, rfl, rfl, rfl⟩
      · split
        · exact ⟨rfl, rfl, rfl, rfl⟩
        · rw [Logged.value_bind]
          split
          · exact ⟨rfl, rfl, rfl, rfl⟩
          · exact ⟨rfl, rfl, rfl, rfl⟩

theorem handleMessage_kept (c : Connection δ) (header : Wire.Header) (body : Wire.Bytes) :
    Kept c (c.handleMessage header body).value.2 := by
  unfold handleMessage
  split
  · exact handleDisplayEvent_kept c header.opcode body
  · exact handleObjectEvent_kept c header.object header.opcode body

theorem absorbUpTo_kept (fuel : Nat) (c : Connection δ) : Kept c (absorbUpTo fuel c).value := by
  induction fuel generalizing c with
  | zero => exact .refl
  | succ fuel ih =>
    unfold absorbUpTo
    split
    · exact .refl
    · exact fail_kept c _
    next header body rest _ =>
      have cut : Kept c { c with inbox := { c.inbox with bytes := rest } } := ⟨rfl, rfl, rfl, rfl⟩
      have handled := cut.trans (handleMessage_kept _ header body)
      rw [Logged.value_bind]
      dsimp only
      split
      · exact handled.trans (fail_kept _ _)
      · exact handled.trans (ih _)

theorem readSocket_kept (c : Connection δ) (outcomes : List ReadOutcome) :
    Kept c (c.readSocket outcomes).value.2.2 := by
  have gathered : Kept c { c with inbox := (c.inbox.gather 0 0 outcomes).inbox } :=
    ⟨rfl, rfl, rfl, rfl⟩
  have absorbed (c : Connection δ) : Kept c c.absorb.value := absorbUpTo_kept _ c
  unfold readSocket
  dsimp only
  split <;> rw [Logged.value_bind, Logged.value_bind] <;> split
  · exact gathered.trans ((fail_kept _ _).trans ((absorbed _).trans (fail_kept _ _)))
  · exact gathered.trans ((fail_kept _ _).trans (absorbed _))
  · exact gathered.trans ((absorbed _).trans (fail_kept _ _))
  · exact gathered.trans (absorbed _)

/-- Only the round ends; the readers of the next one are not affected. -/
theorem readRound_kept (c : Connection δ) (outcomes : List ReadOutcome) :
    Kept { c with gate := c.gate.finishRound } (c.readRound outcomes).value.2.2 := by
  unfold readRound
  split
  · exact .refl
  · have read := readSocket_kept c outcomes
    rw [Logged.value_bind]
    dsimp only
    split
    · exact ⟨read.protocol, read.outbox, congrArg ReadGate.finishRound read.gate, read.closed⟩
    · exact ⟨read.protocol, read.outbox, congrArg ReadGate.finishRound read.gate, read.closed⟩

end Wayland.Client.Connection
