import Wayland.Proofs.Client.Conservation
import Wayland.Proofs.Session.Courses

/-! # Requests are made as a whole or not at all

A request passes many checks before anything changes: those of the connection, of the object and
its version, and of the arguments.  `Grants` is all of them together.  A request that is not
granted leaves everything as it is; one that is granted adds one message to the outgoing stream,
announces the new objects that it names, and changes nothing else (`Takes`).

A full outbox is flushed behind an accepted request.  Whatever the socket does then, the request
stays accepted.
-/

namespace Wayland.Client

variable {δ : Type}

namespace Connection

variable {c c' : Connection δ} {o : ObjectRef} {opcode : UInt16} {args : List Argument}

/-! ## What is asked of a request -/

/-- The request is one that can be made: the connection is in use, the object is the one its holder
    means and alive, its interface has the request, in the object's version, and the arguments can
    be written. -/
def Grants (c : Connection δ) (o : ObjectRef) (opcode : UInt16) (args : List Argument) : Prop :=
  c.check = .ok () ∧ ∃ entry spec sig, c.current? o = some entry ∧
    o.interface.request? opcode = some spec ∧ Message.signature spec = .ok sig ∧
    sig.since ≤ entry.version ∧
    Message.marshal o.id opcode spec args = .ok (Message.encode o.id opcode args)

/-- The connection with one more request in its outbox. -/
def withRequest (c : Connection δ) (o : ObjectRef) (opcode : UInt16) (args : List Argument) :
    Connection δ :=
  { c with
    outbox := c.outbox.append (Message.encode o.id opcode args)
    objects := (args.filterMap Argument.newId?).foldl ObjectTable.markAnnounced c.objects }

theorem queueRequest_grants (usable : c.check = .ok ())
    (queued : (c.queueRequest o opcode args).value = .ok c') :
    c.Grants o opcode args ∧ c' = c.withRequest o opcode args := by
  obtain ⟨_, _, made⟩ := queueRequest_ok queued
  refine ⟨⟨usable, ?_⟩, made⟩
  unfold queueRequest at queued
  split at queued
  · cases queued
  next entry found =>
    split at queued
    · cases queued
    next spec described =>
      split at queued
      · cases queued
      next sig parsed =>
        split at queued
        · cases queued
        next old =>
          rw [Logged.value_bind] at queued
          split at queued
          · cases queued
          next packet written =>
            obtain ⟨_, _, rfl⟩ := Message.marshal_ok_iff.1 written
            exact ⟨entry, spec, sig, found, described, parsed, UInt32.not_lt.1 old, written⟩

theorem Grants.queueRequest (grants : c.Grants o opcode args) :
    (c.queueRequest o opcode args).value = .ok (c.withRequest o opcode args) := by
  obtain ⟨_, entry, spec, sig, found, described, parsed, since, written⟩ := grants
  simp only [Connection.queueRequest, found, described, parsed, if_neg (UInt32.not_lt.2 since),
    Logged.value_bind, written]
  rfl

/-! ## What becomes of it -/

/-- What an accepted request does.  What the socket took meanwhile, in `sends`, and what is left in
    the outbox are the stream of before and one message more, with its descriptors. -/
structure Takes (c : Connection δ) (o : ObjectRef) (opcode : UInt16) (args : List Argument)
    (sends : List Transfer) (c' : Connection δ) : Prop where
  bytes : sends.flatMap (·.bytes.toList) ++ c'.outbox.bytes.toList =
    c.outbox.bytes.toList ++ (Message.encode o.id opcode args).bytes
  fds : sends.flatMap (·.fds) ++ c'.outbox.fds = c.outbox.fds ++ args.filterMap Argument.fd?
  /-- Nothing is sent as long as the outbox is not full. -/
  unsent : c.outbox.bytes.size + Message.size args < Outbox.flushThreshold →
    sends = [] ∧ c'.error = c.error
  announced : ∀ id, c'.objects.get? id =
    if .newId id ∈ args then (c.objects.get? id).map fun entry => { entry with announced := true }
    else c.objects.get? id
  ids : c'.objects.ids = c.objects.ids
  nextGeneration : c'.objects.nextGeneration = c.objects.nextGeneration
  queues : c'.queues = c.queues
  inbox : c'.inbox = c.inbox
  gate : c'.gate = c.gate
  closed : c'.closed = c.closed
  protocol : c'.protocol = c.protocol

theorem size_withRequest (c : Connection δ) (o : ObjectRef) (opcode : UInt16)
    (args : List Argument) :
    (c.withRequest o opcode args).outbox.bytes.size = c.outbox.bytes.size + Message.size args := by
  rw [← Message.length_encode_bytes o.id opcode args, ← Array.length_toList, ← Array.length_toList]
  simp [withRequest, Outbox.append]

/-- The socket takes some of the outbox behind a request, or nothing. -/
theorem takes_of_flush (outcomes : List SendOutcome) (error : Option FatalError)
    (early : c.outbox.bytes.size + Message.size args < Outbox.flushThreshold →
      ((c.withRequest o opcode args).outbox.flush outcomes).transfers = [] ∧ error = c.error) :
    c.Takes o opcode args ((c.withRequest o opcode args).outbox.flush outcomes).transfers
      { c.withRequest o opcode args with
        outbox := ((c.withRequest o opcode args).outbox.flush outcomes).outbox, error } := by
  have flows := flush_flows (c.withRequest o opcode args).outbox outcomes
  obtain ⟨bytes, fds⟩ := flows.conserved
  rw [requests_sends, List.flatMap_nil, List.append_nil] at bytes fds
  rw [Outflow.sentBytes, transfers_sends] at bytes
  rw [Outflow.sentFds, transfers_sends] at fds
  have named (id : ObjectId) : id ∈ args.filterMap Argument.newId? ↔ .newId id ∈ args := by
    rw [List.mem_filterMap]
    constructor
    · rintro ⟨arg, member, new⟩
      cases arg with
      | newId _ =>
        cases new
        exact member
      | _ => cases new
    · exact fun member => ⟨_, member, rfl⟩
  exact
    { bytes := bytes.symm.trans (by simp [withRequest, Outbox.append])
      fds := fds.symm
      unsent := early
      announced := fun id => by
        simp only [withRequest, ObjectTable.get?_announcements, named]
      ids := ObjectTable.ids_announcements _ _
      nextGeneration := ObjectTable.nextGeneration_announcements _ _
      queues := rfl
      inbox := rfl
      gate := rfl
      closed := rfl
      protocol := rfl }

/-- A request either fails and leaves everything as it is, or it was one that can be made, and
    succeeds. -/
theorem sendRequest_cases (c : Connection δ) (o : ObjectRef) (opcode : UInt16)
    (args : List Argument) (outcomes : List SendOutcome) :
    (¬ c.Grants o opcode args ∧ ∃ cause,
      (c.sendRequest o opcode args false outcomes).value = (.error cause, [], c)) ∨
    (c.Grants o opcode args ∧ ∃ sends c', c.Takes o opcode args sends c' ∧
      (c.sendRequest o opcode args false outcomes).value = (.ok (), sends, c')) := by
  unfold sendRequest
  cases usable : c.check with
  | error cause =>
    refine .inl ⟨fun grants => ?_, cause, rfl⟩
    cases usable.symm.trans grants.1
  | ok _ =>
    rw [Logged.value_bind]
    cases queued : (c.queueRequest o opcode args).value with
    | error cause =>
      refine .inl ⟨fun grants => ?_, cause, rfl⟩
      cases queued.symm.trans grants.queueRequest
    | ok c' =>
      obtain ⟨grants, rfl⟩ := queueRequest_grants usable queued
      refine .inr ⟨grants, ?_⟩
      have size := c.size_withRequest o opcode args
      simp only [Bool.false_eq_true, if_false, Logged.pure_bind]
      split
      next room =>
        -- Not to flush is to flush without an answer from the socket.
        exact ⟨_, _, takes_of_flush [] c.error fun _ => ⟨rfl, rfl⟩, rfl⟩
      next full =>
        obtain ⟨result, error, value, _⟩ := flushOutbox_value (c.withRequest o opcode args) outcomes
        refine ⟨_, _, takes_of_flush outcomes error fun room => absurd (size ▸ room) full, ?_⟩
        rw [Logged.value_bind, value]
        dsimp only
        split <;> rfl

end Connection

end Wayland.Client

namespace Wayland.Session

open Client (Action ClientError Connection Logged Note ObjectRef SendOutcome Transfer displayId)

/-! ## Requests of an application -/

/-- The session once notes have been made. -/
def State.noting (s : State) (notes : List Note) : State :=
  { s with frame := { s.frame with notes := s.frame.notes ++ notes } }

theorem putChannel_noting (s : State) (connection : ConnectionRef) (notes : List Note) :
    s.putChannel connection (s.channel connection) notes = s.noting notes := by
  have same := congrArg (·.noting notes) (putChannel_same s connection)
  simpa [State.putChannel, State.noting] using same

theorem channel_sendRequest {channel : Channel} {o : ObjectRef} {opcode : UInt16}
    {args : List Argument} {result : Except ClientError Unit} {sends : List Transfer}
    {c' : Connection ObjectData}
    (value : (channel.connection.sendRequest o opcode args false channel.link.sendOutcomes).value =
      (result, sends, c')) :
    (channel.sendRequest o opcode args false).value = (result, ⟨c', channel.link.carry sends⟩) := by
  simp only [Channel.sendRequest, Logged.value_bind, Logged.value_pure, value]

/-- Requests are made as a whole or not at all.  On every connection, with any object, opcode and
    arguments and whatever the socket does: a request that fails leaves the connection exactly as
    it was, and it was not one that can be made.  One that succeeds could be made; it adds its
    message and its descriptors to the end of the outgoing stream, of which the socket may have
    taken a part already, marks the objects that it creates as announced, and changes nothing else
    of the objects and queues.  The same holds of what an application asks of a proxy: a failure
    leaves the session as it is but for notes, and a success concerns the connection of the proxy
    alone. -/
theorem requests_all_or_nothing {δ : Type} (opcode : UInt16) (args : List Argument) :
    (∀ (c : Connection δ) (o : ObjectRef) (outcomes : List SendOutcome),
      match (c.sendRequest o opcode args false outcomes).value with
      | (.error _, sends, c') => ¬ c.Grants o opcode args ∧ sends = [] ∧ c' = c
      | (.ok (), sends, c') => c.Grants o opcode args ∧ c.Takes o opcode args sends c') ∧
    ∀ (s : State) (p : Proxy),
      match s.outcome (p.marshal opcode args) with
      | (.error _, s') =>
        (∀ h, p.handle = some h → s.keeps h.connection = true →
          ¬ (s.channel h.connection).connection.Grants h.object opcode args) ∧
        ∃ notes, s' = s.noting notes
      | (.ok (), s') => ∃ h sends c' notes, p.handle = some h ∧ s.keeps h.connection = true ∧
        (s.channel h.connection).connection.Grants h.object opcode args ∧
        (s.channel h.connection).connection.Takes h.object opcode args sends c' ∧
        s' = s.putChannel h.connection ⟨c', (s.channel h.connection).link.carry sends⟩ notes := by
  constructor
  · intro c o outcomes
    obtain ⟨refused, cause, value⟩ | ⟨granted, sends, c', takes, value⟩ :=
      c.sendRequest_cases o opcode args outcomes
    · rw [value]
      exact ⟨refused, rfl, rfl⟩
    · rw [value]
      exact ⟨granted, takes⟩
  · intro s p
    unfold Proxy.marshal
    obtain ⟨⟨cause, failed⟩, nobody⟩ | ⟨h, held, kept, live⟩ := live_cases s p
    · rw [outcome_bind_error failed]
      refine ⟨fun h held kept => ?_, [], by simp [State.noting]⟩
      simp [held, kept] at nobody
    · rw [outcome_bind_ok live, outcome_tryChannel]
      obtain ⟨refused, cause, value⟩ | ⟨granted, sends, c', takes, value⟩ :=
        (s.channel h.connection).connection.sendRequest_cases h.object opcode args
          (s.channel h.connection).link.sendOutcomes
      · have failed := channel_sendRequest value
        rw [Link.carry, List.append_nil] at failed
        rw [failed, mapError_error]
        refine ⟨fun h' held' _ => ?_, _, putChannel_noting s h.connection _⟩
        obtain rfl : h = h' := Option.some.inj (held.symm.trans held')
        exact refused
      · rw [channel_sendRequest value, mapError_ok]
        exact ⟨h, sends, c', _, held, kept, granted, takes, rfl⟩

/-- An interface whose objects make others, out of some bytes. -/
def maker : Interface where
  name := "maker"
  version := 1
  requests := [⟨"make", "na", [none, none]⟩]
  events := []

/-- Two objects are there: the second is one that the first is about to make. -/
def preparedMaking : List (Action Unit) :=
  [.create ⟨displayId, 0, Protocol.Core.display, 1⟩ maker 1, .create ⟨2, 1, maker, 1⟩ maker 1]

/-- The request that makes it is granted.  Without an object to make, it would change nothing. -/
theorem requests_all_or_nothing_making :
    let c := (Connection.initial ⟨[]⟩).run preparedMaking
    (c.objects.get? 3).map (·.announced) = some false ∧
    (∃ sends c', (c.sendRequest ⟨2, 1, maker, 1⟩ 0 [.newId 3, .array [7, 7]] false []).value =
      (.ok (), sends, c') ∧ c.Takes ⟨2, 1, maker, 1⟩ 0 [.newId 3, .array [7, 7]] sends c') ∧
    ∃ cause, (c.sendRequest ⟨2, 1, maker, 1⟩ 0 [.newId 0, .array [7, 7]] false []).value =
      (.error cause, [], c) := by
  intro c
  have succeeds : (c.sendRequest ⟨2, 1, maker, 1⟩ 0
      [.newId 3, .array [7, 7]] false []).value.1.toOption = some () := by
    decide +kernel
  have fails : (c.sendRequest ⟨2, 1, maker, 1⟩ 0
      [.newId 0, .array [7, 7]] false []).value.1.toOption = none := by
    decide +kernel
  refine ⟨by decide +kernel, ?_, ?_⟩
  all_goals clear_value c
  · have whole := (requests_all_or_nothing 0 [.newId 3, .array [7, 7]]).1 c ⟨2, 1, maker, 1⟩ []
    generalize (c.sendRequest _ _ [.newId 3, _] _ _).value = made at succeeds whole ⊢
    obtain ⟨_ | _, sends, c'⟩ := made
    · cases succeeds
    · exact ⟨sends, c', rfl, whole.2⟩
  · have whole := (requests_all_or_nothing 0 [.newId 0, .array [7, 7]]).1 c ⟨2, 1, maker, 1⟩ []
    generalize (c.sendRequest _ _ [.newId 0, _] _ _).value = made at fails whole ⊢
    obtain ⟨cause | _, sends, c'⟩ := made
    · obtain ⟨_, rfl, rfl⟩ := whole
      exact ⟨cause, rfl⟩
    · cases fails

end Wayland.Session
