import Wayland.Client.Connection

/-! # From incoming bytes to queued events

Bytes arrive in pieces of any length.  `absorb` cuts complete messages off the front and handles
them one by one: events of the display take effect at once, other events go to the queue of their
object.  The first message that makes no sense ends the connection, and the bytes behind it are
never looked at.

As for sending, what the socket answers to attempts to read is an input.
-/

namespace Wayland.Client

/-- What the front of the incoming bytes is. -/
inductive Front
  /-- Not yet a complete message. -/
  | incomplete
  /-- A header whose size cannot be that of a message. -/
  | malformed (header : Wire.Header)
  /-- A message, and what follows it. -/
  | message (header : Wire.Header) (body rest : Wire.Bytes)

/-- Looks at the front of the incoming bytes. -/
def Front.of (bytes : Wire.Bytes) : Front :=
  match Wire.readHeader bytes with
  | .error _ => .incomplete
  | .ok header =>
    let size := header.size.toNat
    let message := bytes.take size
    if size < Wire.headerSize || size % 4 ≠ 0 then .malformed header
    else if message.length < size then .incomplete
    else .message header (message.drop Wire.headerSize) (bytes.drop size)

namespace Connection

variable {δ : Type}

/-! ## Messages -/

/-- Handles an event of the display: an error ends the connection, but what follows in the same
    bytes is still handled; a number that the compositor lets go of becomes free. -/
def handleDisplayEvent (c : Connection δ) (opcode : UInt16) (body : Wire.Bytes) :
    Logged (Option FatalError × Connection δ) :=
  match Protocol.Core.display.event? opcode with
  | none => pure (some (.malformed (.noDisplayEvent opcode)), c)
  | some spec =>
    let (result, fds) := Message.demarshal spec body c.inbox.fds
    let c := { c with inbox := { c.inbox with fds } }
    match result with
    | .error cause => pure (some (.malformed (.displayEvent spec.name cause)), c)
    | .ok args => do
      Logged.note (.event Protocol.Core.display.name displayId spec.name args)
      match opcode, args with
      | Protocol.Core.errorEvent, [.object object, .uint code, .str (some message)] =>
        let id := object.getD 0
        let interface := ((c.objects.get? id).map (·.interface.name)).getD "unknown"
        let c ← c.fail (.protocol { object := id, interface, code, message })
        return (none, c)
      | Protocol.Core.deleteIdEvent, [.uint id] =>
        let objects ← c.objects.deleteId id
        return (none, { c with objects })
      | _, _ => return (none, c)

/-- Enters the objects that an event creates, from argument `index` on.  They get the version and
    the queue of the sender. -/
def enterNewObjects (protocol : Protocol) (sender : ObjectId) (entry : Entry δ)
    (spec : MessageSpec) :
    Nat → List Argument → ObjectTable δ → Logged (Option NumberConflict × ObjectTable δ)
  | _, [], objects => pure (none, objects)
  | index, arg :: args, objects =>
    match arg.newId? with
    | none => enterNewObjects protocol sender entry spec (index + 1) args objects
    | some id =>
      match protocol.argInterface? spec index with
      | none => do
        Logged.note (.untypedObject entry.interface.name sender spec.name id)
        enterNewObjects protocol sender entry spec (index + 1) args objects
      | some interface =>
        match objects.insertServer id interface entry.version entry.queue with
        | .error conflict => pure (some conflict, objects)
        | .ok objects => do
          Logged.note (.objectCreated interface.name id)
          enterNewObjects protocol sender entry spec (index + 1) args objects

/-- Handles an event of an object other than the display.  Events of numbers that nobody knows are
    thrown away.  Events of zombies are thrown away together with their descriptors. -/
def handleObjectEvent (c : Connection δ) (id : ObjectId) (opcode : UInt16) (body : Wire.Bytes) :
    Logged (Option FatalError × Connection δ) :=
  match c.objects.get? id with
  | none => do
    Logged.note (.eventForUnknown opcode id)
    return (none, c)
  | some entry =>
    let name := entry.interface.name
    match entry.interface.event? opcode with
    | none => pure (some (.malformed (.noEvent name id opcode)), c)
    | some spec =>
      match entry.life with
      | .zombie => do
        let count := match Message.signature spec with
          | .ok sig => sig.fdCount
          | .error _ => 0
        Logged.note (.eventForZombie name id spec.name)
        return (none, { c with inbox := { c.inbox with fds := c.inbox.fds.drop count } })
      | .live =>
        let (result, fds) := Message.demarshal spec body c.inbox.fds
        let c := { c with inbox := { c.inbox with fds } }
        match result with
        | .error cause => pure (some (.malformed (.event name id spec.name cause)), c)
        | .ok args => do
          let (conflict, objects) ← enterNewObjects c.protocol id entry spec 0 args c.objects
          let c := { c with objects }
          match conflict with
          | some cause => return (some (.malformed (.newObject cause)), c)
          | none =>
            let queue := if c.queues.contains entry.queue then entry.queue else QueueId.default
            let queues ← c.queues.push queue
              { sender := id, generation := entry.generation, opcode, args }
            return (none, { c with queues })

/-- Handles one message. -/
def handleMessage (c : Connection δ) (header : Wire.Header) (body : Wire.Bytes) :
    Logged (Option FatalError × Connection δ) :=
  if header.object = displayId then c.handleDisplayEvent header.opcode body
  else c.handleObjectEvent header.object header.opcode body

/-- Handles complete messages at the front of the inbox, at most `fuel` of them. -/
def absorbUpTo : Nat → Connection δ → Logged (Connection δ)
  | 0, c => pure c
  | fuel + 1, c =>
    match Front.of c.inbox.bytes with
    | .incomplete => pure c
    | .malformed header => c.fail (.malformed (.size header.object header.size.toNat))
    | .message header body rest => do
      let (fault, c) ← handleMessage { c with inbox := { c.inbox with bytes := rest } } header body
      match fault with
      | some error => c.fail error
      | none => absorbUpTo fuel c

/-- Handles all complete messages in the inbox: a message has at least eight bytes, so there are
    fewer messages than bytes. -/
def absorb (c : Connection δ) : Logged (Connection δ) := absorbUpTo c.inbox.bytes.length c

end Connection

/-! ## Reading -/

/-- What the socket answers to an attempt to read. -/
inductive ReadOutcome
  | received (bytes : Wire.Bytes) (fds : List Fd)
  /-- The compositor has closed its end and everything it sent has been read. -/
  | hungUp
  /-- A signal came first; nothing was read. -/
  | interrupted
  /-- There is nothing to read at present. -/
  | wouldBlock
  | failed (fault : SocketFault)
  deriving DecidableEq

/-- What was gathered from the socket in one round. -/
structure Gathered where
  inbox : Inbox
  /-- How many bytes. -/
  total : Nat
  hungUp : Bool := false
  fault : Option SocketFault := none
  /-- How many answers of the socket were used. -/
  used : Nat

namespace Inbox

/-- How many bytes one attempt asks for. -/
def readChunk : Nat := 4096

/-- A round ends once it has gathered as many bytes as this. -/
def readBudget : Nat := 16 * readChunk

/-- Reads until there is nothing more, the budget is used up, or the socket fails.  `total` and
    `used` count what the round has gathered before. -/
def gather (inbox : Inbox) (total used : Nat) : List ReadOutcome → Gathered
  | [] => { inbox, total, used }
  | outcome :: outcomes =>
    if readBudget ≤ total then { inbox, total, used }
    else
      match outcome with
      | .received bytes fds =>
        gather { bytes := inbox.bytes ++ bytes, fds := inbox.fds ++ fds }
          (total + bytes.length) (used + 1) outcomes
      | .hungUp => { inbox, total, used := used + 1, hungUp := true }
      | .interrupted => gather inbox total (used + 1) outcomes
      | .wouldBlock => { inbox, total, used := used + 1 }
      | .failed fault => { inbox, total, used := used + 1, fault := some fault }

end Inbox

/-- How it goes for a reader that withdraws its intention by reading. -/
inductive Reading
  /-- It was the last one and has read. -/
  | done (result : Except ClientError Nat)
  /-- It has to wait for the end of the round with this serial number. -/
  | waiting (serial : UInt64)
  /-- It had declared no intention. -/
  | unpaired

namespace Connection

variable {δ : Type}

/-- Reads and handles what there is.  Answers the number of bytes, unless the connection has ended
    by then, and how many answers of the socket were used. -/
def readSocket (c : Connection δ) (outcomes : List ReadOutcome) :
    Logged (Except ClientError Nat × Nat × Connection δ) := do
  let gathered := c.inbox.gather 0 0 outcomes
  let c := { c with inbox := gathered.inbox }
  let c ← match gathered.fault with
    | some fault => c.fail (.socket fault)
    | none => pure c
  let c ← c.absorb
  let c ← if gathered.hungUp then c.fail .disconnected else pure c
  return (c.check.map fun _ => gathered.total, gathered.used, c)

/-- The last reader of a round reads, and the round ends. -/
def readRound (c : Connection δ) (outcomes : List ReadOutcome) :
    Logged (Except ClientError Nat × Nat × Connection δ) :=
  match c.check with
  | .error cause => pure (.error cause, 0, { c with gate := c.gate.finishRound })
  | .ok () => do
    let (result, used, c) ← c.readSocket outcomes
    match result with
    | .ok count => Logged.note (.bytesRead count)
    | .error _ => pure ()
    return (result, used, { c with gate := c.gate.finishRound })

/-- Declares the intention to read, for the sake of a queue that has to be empty. -/
def prepareRead (c : Connection δ) (queue : QueueId) : Except ClientError (Connection δ) := do
  c.check
  match c.queues.get? queue with
  | none => .error .invalidQueue
  | some [] => .ok { c with gate := c.gate.declare }
  | some (_ :: _) => .error .eventsPending

/-- A reader withdraws its intention by reading; only the last one of a round reads.  Answers also
    how many answers of the socket were used. -/
def readEvents (c : Connection δ) (outcomes : List ReadOutcome) :
    Logged (Reading × Nat × Connection δ) :=
  match c.gate.withdraw with
  | (.last, gate) => do
    let (result, used, c) ← { c with gate }.readRound outcomes
    return (.done result, used, c)
  | (.wait serial, gate) => pure (.waiting serial, 0, { c with gate })
  | (.unpaired, gate) => pure (.unpaired, 0, { c with gate })

/-- What a reader finds that waits for the end of the round with a serial number: nothing as long
    as the round goes on.  Nobody waits on a closed connection. -/
def waitOver? (c : Connection δ) (serial : UInt64) : Option (Except ClientError Unit) :=
  if c.gate.serial = serial && !c.closed then none else some c.check

/-- Gives up the intention to read.  If it was the last one, the round ends without reading. -/
def cancelRead (c : Connection δ) : Connection δ :=
  match c.gate.withdraw with
  | (.last, gate) => { c with gate := gate.finishRound }
  | (_, gate) => { c with gate }

end Connection

/-! ## Dispatching -/

/-- An event on its way to what is attached to its sender. -/
structure Delivery (δ : Type) where
  data : δ
  interface : Interface
  event : QueuedEvent

namespace Connection

variable {δ : Type}

/-- The first event whose sender still is the object it came from and has something attached to
    it, and the events behind it.  Events in front of it are dropped. -/
def firstDelivery (objects : ObjectTable δ) :
    List QueuedEvent → Logged (Option (Delivery δ) × List QueuedEvent)
  | [] => pure (none, [])
  | event :: events =>
    match objects.live? event.sender with
    | none => do
      Logged.note (.eventForDestroyed event.opcode event.sender)
      firstDelivery objects events
    | some entry =>
      if entry.generation ≠ event.generation then do
        Logged.note (.eventForPredecessor event.opcode event.sender)
        firstDelivery objects events
      else
        match entry.data with
        | none => do
          Logged.note (.eventWithoutListener event.opcode event.sender)
          firstDelivery objects events
        | some data => pure (some { data, interface := entry.interface, event }, events)

/-- Takes the next event to be delivered out of a queue. -/
def nextEvent (c : Connection δ) (queue : QueueId) :
    Logged (Except ClientError (Option (Delivery δ)) × Connection δ) :=
  match c.check with
  | .error cause => pure (.error cause, c)
  | .ok () =>
    match c.queues.get? queue with
    | none => pure (.error .invalidQueue, c)
    | some events => do
      let (delivery, rest) ← firstDelivery c.objects events
      return (.ok delivery, { c with queues := c.queues.set queue rest })

end Connection

end Wayland.Client
