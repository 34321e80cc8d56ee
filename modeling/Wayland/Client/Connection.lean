import Wayland.Client.EventQueues
import Wayland.Client.Outbox
import Wayland.Client.ReadGate

/-! # The state of a connection

Everything that threads share: objects, queues, buffers in both directions, the read gate, and
how the connection ended.  Operations on it are atomic; between two of them other threads, or
handlers of events, may do what they like.
-/

namespace Wayland.Client

/-- Bytes and descriptors that arrived and are not yet part of an event. -/
structure Inbox where
  bytes : Wire.Bytes := []
  fds : List Fd := []
  deriving DecidableEq, Inhabited

/-- The state of a connection.  `δ` is what the application attaches to objects. -/
structure Connection (δ : Type) where
  protocol : Protocol
  objects : ObjectTable δ
  queues : EventQueues
  outbox : Outbox
  inbox : Inbox
  gate : ReadGate
  /-- Why the connection has ended, if it has. -/
  error : Option FatalError
  /-- Whether the client itself has closed it. -/
  closed : Bool

/-- An object as its holders know it. -/
structure ObjectRef where
  id : ObjectId
  generation : Generation
  interface : Interface
  version : UInt32
  deriving DecidableEq, Inhabited

namespace Connection

variable {δ : Type}

/-- A new connection for programs that know the tables of `protocol`. -/
def initial (protocol : Protocol) : Connection δ where
  protocol := protocol
  objects := ObjectTable.initial
  queues := EventQueues.initial
  outbox := {}
  inbox := {}
  gate := {}
  error := none
  closed := false

/-- Whether the connection can still be used. -/
def check (c : Connection δ) : Except ClientError Unit :=
  if c.closed then .error .disconnected
  else
    match c.error with
    | some error => .error (.fatal error)
    | none => .ok ()

/-- The connection ends. -/
def fail (c : Connection δ) (error : FatalError) : Logged (Connection δ) :=
  let recorded := some (FatalError.record c.error error)
  if recorded = c.error then pure c
  else do
    Logged.note (.fatal error)
    return { c with error := recorded }

/-- The live entry of the object that a holder means. -/
def current? (c : Connection δ) (o : ObjectRef) : Option (Entry δ) :=
  c.objects.current? o.id o.generation

/-- Whether a holder's object is in use. -/
def isValid (c : Connection δ) (o : ObjectRef) : Bool := !c.closed && (c.current? o).isSome

/-- The live object with a number, as a new holder would know it. -/
def ref? (c : Connection δ) (id : ObjectId) : Option ObjectRef :=
  (c.objects.live? id).map fun entry =>
    { id, generation := entry.generation, interface := entry.interface, version := entry.version }

/-- What is attached to the live object that an argument names. -/
def objectContext? (c : Connection δ) (id : Option ObjectId) : Option δ := do
  let entry ← c.objects.live? (← id)
  entry.data

/-! ## Sending -/

/-- Sends what waits in the outbox, with the outcomes of the socket as given.  Answers the number
    of bytes sent, and what the socket took in any case.  A closed pipe is no reason to end the
    connection: what the compositor said before may still be read. -/
def flushOutbox (c : Connection δ) (outcomes : List SendOutcome) :
    Logged (Except ClientError Nat × List Transfer × Connection δ) :=
  let flushed := c.outbox.flush outcomes
  let c := { c with outbox := flushed.outbox }
  match flushed.stop with
  | none => pure (.ok flushed.written, flushed.transfers, c)
  | some .wouldBlock => pure (.error .wouldBlock, flushed.transfers, c)
  | some .brokenPipe => pure (.error .brokenPipe, flushed.transfers, c)
  | some (.failed fault) => do
    let c ← c.fail (.socket fault)
    return (.error (.fatal (.socket fault)), flushed.transfers, c)

/-- Sends what waits in the outbox of a connection that is in use. -/
def flush (c : Connection δ) (outcomes : List SendOutcome) :
    Logged (Except ClientError Nat × List Transfer × Connection δ) :=
  match c.check with
  | .error cause => pure (.error cause, [], c)
  | .ok () => c.flushOutbox outcomes

/-- Puts a request into the outbox.  The object has to be in use, its interface has to have the
    request in the object's version, and the arguments have to fit.  Numbers of new objects count
    as known to the compositor from here on. -/
def queueRequest (c : Connection δ) (o : ObjectRef) (opcode : UInt16) (args : List Argument) :
    Logged (Except ClientError (Connection δ)) :=
  match c.current? o with
  | none => pure (.error .invalidProxy)
  | some entry =>
    match o.interface.request? opcode with
    | none => pure (.error (.unknownRequest o.interface.name opcode))
    | some spec =>
      match Message.signature spec with
      | .error cause => pure (.error (.marshal cause))
      | .ok sig =>
        if entry.version < sig.since then
          pure (.error (.versionTooLow o.interface.name spec.name sig.since entry.version))
        else do
          Logged.note (.request o.interface.name o.id spec.name args)
          match Message.marshal o.id opcode spec args with
          | .error cause => return .error (.marshal cause)
          | .ok packet =>
            let created := args.filterMap Argument.newId?
            return .ok { c with
              outbox := c.outbox.append packet
              objects := created.foldl ObjectTable.markAnnounced c.objects }

/-- Makes a request.  `final` requests end the life of their object.  A full outbox is flushed;
    if that fails, the request stays in the outbox. -/
def sendRequest (c : Connection δ) (o : ObjectRef) (opcode : UInt16) (args : List Argument)
    (final : Bool) (outcomes : List SendOutcome) :
    Logged (Except ClientError Unit × List Transfer × Connection δ) :=
  match c.check with
  | .error cause => pure (.error cause, [], c)
  | .ok () => do
    match ← c.queueRequest o opcode args with
    | .error cause => return (.error cause, [], c)
    | .ok c =>
      let objects ← if final then c.objects.release o.id o.generation else pure c.objects
      let c := { c with objects }
      if c.outbox.bytes.size < Outbox.flushThreshold then return (.ok (), [], c)
      else
        let (result, transfers, c) ← c.flushOutbox outcomes
        match result with
        | .ok _ | .error .wouldBlock => pure ()
        | .error cause => Logged.note (.earlyFlushFailed cause)
        return (.ok (), transfers, c)

/-! ## Objects -/

/-- A new object, made through a factory whose queue it inherits. -/
def createObject (c : Connection δ) (factory : ObjectRef) (interface : Interface)
    (version : UInt32) : Except ClientError (ObjectRef × Connection δ) := do
  c.check
  match c.current? factory with
  | none => .error .invalidProxy
  | some entry =>
    match c.objects.insertClient interface version entry.queue with
    | .error cause => .error (.idsExhausted cause)
    | .ok (id, generation, objects) =>
      .ok ({ id, generation, interface, version }, { c with objects })

/-- Takes possession of an object that the compositor created. -/
def adoptObject (c : Connection δ) (id : ObjectId) (interface : Interface) :
    Except ClientError (ObjectRef × Connection δ) := do
  c.check
  match c.objects.live? id with
  | none => .error .invalidProxy
  | some entry =>
    if !entry.interface.same interface then
      .error (.wrongInterface interface.name entry.interface.name)
    else if entry.owned then .error (.alreadyOwned id)
    else
      .ok ({ id, generation := entry.generation, interface, version := entry.version },
        { c with objects := c.objects.put id { entry with owned := true } })

/-- The owner of an object gives it up. -/
def releaseObject (c : Connection δ) (o : ObjectRef) : Logged (Connection δ) := do
  let objects ← c.objects.release o.id o.generation
  return { c with objects }

/-- Attaches `data` to an object, for events of `interface` with `handlers` of them.  Both have to
    match the holder's table.  Answers whether there was nothing attached so far; otherwise
    nothing changes. -/
def attach (c : Connection δ) (o : ObjectRef) (interface : Interface) (handlers : Nat)
    (data : δ) : Logged (Except ClientError (Bool × Connection δ)) :=
  if !interface.same o.interface || handlers ≠ o.interface.events.length then
    pure (.error (.listenerMismatch interface.name o.interface.name))
  else
    match c.check with
    | .error cause => pure (.error cause)
    | .ok () =>
      match c.current? o with
      | none => pure (.error .invalidProxy)
      | some entry =>
        if entry.data.isSome then do
          Logged.note (.alreadyListening o.interface.name o.id)
          return .ok (false, c)
        else
          pure (.ok (true,
            { c with objects := c.objects.put o.id { entry with data := some data } }))

/-- Sends the events of an object to a queue from now on. -/
def setQueue (c : Connection δ) (o : ObjectRef) (queue : QueueId) :
    Except ClientError (Connection δ) := do
  c.check
  if !c.queues.contains queue then .error .invalidQueue
  else
    match c.current? o with
    | none => .error .invalidProxy
    | some entry => .ok { c with objects := c.objects.put o.id { entry with queue } }

/-! ## Queues -/

/-- A new queue. -/
def createQueue (c : Connection δ) : Logged (Except ClientError (QueueId × Connection δ)) :=
  match c.check with
  | .error cause => pure (.error cause)
  | .ok () => do
    let (queue, queues) := c.queues.create
    Logged.note (.queueCreated queue)
    return .ok (queue, { c with queues })

/-- Removes a queue and the events in it.  Objects that used it go to the default queue. -/
def destroyQueue (c : Connection δ) (queue : QueueId) : Logged (Connection δ) := do
  let moved := c.objects.queueUsers queue
  if 0 < moved then Logged.note (.queueStillUsed moved queue)
  let (events, queues) := c.queues.remove queue
  if !events.isEmpty then Logged.note (.queueDropped events.length queue)
  return { c with objects := c.objects.reassignQueue queue QueueId.default, queues }

/-! ## Closing -/

/-- Ends the connection from the client's side: a last flush, then everything is forgotten.
    Nothing happens the second time. -/
def close (c : Connection δ) (outcomes : List SendOutcome) :
    Logged (List Transfer × Connection δ) :=
  if c.closed then pure ([], c)
  else do
    let (result, transfers, c) ← c.flushOutbox outcomes
    match result with
    | .ok _ => pure ()
    | .error cause => Logged.note (.lastFlushFailed cause)
    Logged.note (.closed c.objects.attachments c.queues.count)
    return (transfers,
      { c with closed := true, objects := c.objects.clear, queues := c.queues.clear })

end Connection

end Wayland.Client
