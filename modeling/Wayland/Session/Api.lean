import Wayland.Session.State

/-! # What an application can do

The operations on proxies, queues, displays and read intents, as computations on a session.  A
proxy or queue whose connection is no longer kept alive by anything behaves as if the connection
had been closed.
-/

namespace Wayland.Session

open Client (Connection ObjectRef QueueId Logged Note ClientError displayId)

/-! ## A connection and its socket -/

namespace Channel

/-- Makes a request; the socket is as full as it is. -/
def sendRequest (channel : Channel) (object : ObjectRef) (opcode : UInt16) (args : List Argument)
    (final : Bool) : Logged (Except ClientError Unit × Channel) := do
  let (result, transfers, connection) ←
    channel.connection.sendRequest object opcode args final channel.link.sendOutcomes
  return (result, { connection, link := channel.link.carry transfers })

/-- Sends what waits to be sent. -/
def flush (channel : Channel) : Logged (Except ClientError Nat × Channel) := do
  let (result, transfers, connection) ← channel.connection.flush channel.link.sendOutcomes
  return (result, { connection, link := channel.link.carry transfers })

/-- A reader withdraws its intention by reading.  There is no result as long as it has to wait
    for other readers. -/
def readEvents (channel : Channel) : Logged (Option (Except ClientError Nat) × Channel) := do
  let reads := channel.link.reads
  let (reading, used, connection) ← channel.connection.readEvents (reads.map Prod.fst)
  let result := match reading with
    | .done result => some result
    | .waiting serial => (connection.waitOver? serial).map (·.map fun _ => 0)
    | .unpaired => some (connection.check.map fun _ => 0)
  return (result, { connection, link := channel.link.afterReads reads used })

/-- Closes the connection and the socket. -/
def close (channel : Channel) : Logged (Unit × Channel) := do
  let (transfers, connection) ← channel.connection.close channel.link.sendOutcomes
  return ((), { connection, link := (channel.link.carry transfers).closeClient })

end Channel

/-! ## Proxies -/

/-- The object of a proxy, if the proxy stands for one and its connection is alive. -/
def Proxy.live (p : Proxy) : StepM Handle := do
  match p.handle with
  | none => throw (.client .invalidProxy)
  | some h =>
    if (← get).keeps h.connection then return h else throw (.client .disconnected)

/-- The object of a proxy, if it is in use. -/
def State.valid? (s : State) (p : Proxy) : Option Handle :=
  p.handle.filter fun h =>
    s.keeps h.connection && (s.channel h.connection).connection.isValid h.object

/-- What a proxy says about itself. -/
def State.info (s : State) (p : Proxy) : ProxyInfo :=
  let valid := s.valid? p
  { valid := valid.isSome
    id := (valid.map (·.object.id)).getD 0
    interface := valid.map (·.object.interface.name)
    version := valid.map (·.object.version)
    connected := (p.handle.map fun h => s.keeps h.connection).getD false
    shown := p.shown }

/-- Makes a request. -/
def Proxy.marshal (p : Proxy) (opcode : UInt16) (args : List Argument) : StepM Unit := do
  let h ← p.live
  tryChannel h.connection fun channel => channel.sendRequest h.object opcode args false

/-- Attaches something to the object of a proxy. -/
def Proxy.attach (p : Proxy) (interface : Interface) (handlers : Nat) (data : ObjectData) :
    StepM Bool := do
  let h ← p.live
  tryConnection h.connection fun c => c.attach h.object interface handlers data

/-- What is attached to the object of a proxy. -/
def State.attached? (s : State) (p : Proxy) : Option ObjectData := do
  let h ← p.handle
  if s.keeps h.connection then
    ((s.channel h.connection).connection.current? h.object).bind (·.data)
  else none

/-- Sends the events of the object of a proxy to a queue. -/
def Proxy.setQueueId (p : Proxy) (queue : QueueId) : StepM Unit := do
  let h ← p.live
  tryConnection h.connection fun c => pure ((c.setQueue h.object queue).map ((), ·))

/-- Sends the events of the object of a proxy to a queue of the same connection. -/
def Proxy.setQueue (p : Proxy) (queue : EventQueue) : StepM Unit := do
  match queue.id with
  | none => throw (.client .invalidQueue)
  | some id =>
    let h ← p.live
    if h.connection ≠ queue.connection then throw (.client .invalidQueue)
    p.setQueueId id

/-- The proxy goes away.  If it owns its object, the object is destroyed. -/
def Proxy.destroy (p : Proxy) : SessionM Proxy := do
  match p.handle with
  | some h =>
    if p.owning && (← get).keeps h.connection then
      onConnection h.connection fun c => do return ((), ← c.releaseObject h.object)
  | none => pure ()
  return { p with handle := none }

/-- Makes a last request and destroys the object.  If the request fails, the object is destroyed
    all the same; a proxy that stands for nothing has nothing to ask for. -/
def Proxy.destroyWithRequest (p : Proxy) (opcode : UInt16) (args : List Argument) :
    SessionM (Except StepError Unit × Proxy) := do
  match ← p.live.run with
  | .error _ => return (.ok (), ← p.destroy)
  | .ok h =>
    let sent ← (tryChannel h.connection fun channel =>
      channel.sendRequest h.object opcode args true).run
    match sent with
    | .ok () => return (.ok (), { p with handle := none })
    | .error cause => return (.error cause, ← p.destroy)

/-- A new object of a given version, made through a factory. -/
def Proxy.createVersioned (factory : Proxy) (interface : Interface) (version : UInt32) :
    StepM Proxy := do
  let h ← factory.live
  let object ← tryConnection h.connection fun c =>
    pure (c.createObject h.object interface version)
  return { handle := some { connection := h.connection, object }, owning := true }

/-- A new object of the version of its factory, which has to be in use. -/
def Proxy.create (factory : Proxy) (interface : Interface) : StepM Proxy := do
  match (← get).valid? factory with
  | none => throw (.client .invalidProxy)
  | some h => factory.createVersioned interface h.object.version

/-- A borrowing proxy of the object with a number, if there is one. -/
def State.borrow (s : State) (connection : ConnectionRef) (id : Option ObjectId) : Proxy :=
  { handle := (id.bind (s.channel connection).connection.ref?).map fun object =>
      { connection, object }
    owning := false }

/-- An owning proxy of an object that the compositor created. -/
def adoptObject (connection : ConnectionRef) (id : ObjectId) (interface : Interface) :
    StepM Proxy := do
  let object ← tryConnection connection fun c => pure (c.adoptObject id interface)
  return { handle := some { connection, object }, owning := true }

/-! ## Registries and callbacks -/

/-- Attaches the handlers of a registry or callback to its object; a failure is only noted. -/
def attachHandlers (p : Proxy) (interface : Interface) (data : ObjectData) : SessionM Unit := do
  match ← (p.attach interface interface.events.length data).run with
  | .error (.client cause) => addNote (.cannotListen interface.name cause)
  | _ => pure ()

/-- A registry around a proxy. -/
def newRegistry (p : Proxy) : SessionM Bound := do
  let cell := (← get).registries.length
  modify fun s => { s with registries := s.registries ++ [{}] }
  attachHandlers p Protocol.Core.registry (.registry cell)
  return .registry p cell

/-- A callback around a proxy; its handlers are at the place that is returned with it. -/
def newCallback (p : Proxy) : SessionM (Bound × Nat) := do
  let cell := (← get).callbacks.length
  modify fun s => { s with callbacks := s.callbacks ++ [{}] }
  attachHandlers p Protocol.Core.callback (.callback cell)
  return (.callback p cell, cell)

/-- Drops what a name stood for. -/
def Bound.drop (b : Bound) : SessionM Unit := do
  let _ ← b.proxy.destroy

/-- Attaches the listener of a script to a proxy whose interface is `own`. -/
def Proxy.listen (p : Proxy) (own : Interface) (listener : Listener) : StepM Bool := do
  let interface ← match listener.interface with
    | some name => interfaceNamed name
    | none => pure own
  let handlers := listener.handlers.getD interface.events.length
  p.attach interface handlers
    (.listener listener.context listener.label interface.name handlers listener.actions)

/-- What an object bound through a registry is wrapped in: a registry, a callback, or a plain
    proxy with a listener. -/
def wrapBound (interface : Interface) (listener : Option Listener) (p : Proxy) :
    SessionM Bound := do
  if interface.same Protocol.Core.registry then newRegistry p
  else if interface.same Protocol.Core.callback then return (← newCallback p).1
  else
    match listener with
    | some listener =>
      let _ ← (p.listen interface listener).run
      return .plain p
    | none => return .plain p

/-- The table that objects bound under an interface name follow. -/
def boundInterface (name : String) : StepM Interface := do
  if name = Protocol.Core.registry.name then return Protocol.Core.registry
  else if name = Protocol.Core.callback.name then return Protocol.Core.callback
  else interfaceNamed name

/-- Makes the request that tells the compositor of a new object.  If it fails, the object is
    dropped. -/
def announce (object : Bound) (sender : Proxy) (opcode : UInt16) (args : List Argument) :
    StepM Bound := do
  match ← observing (sender.marshal opcode args) with
  | .ok () => return object
  | .error cause =>
    object.drop
    throw cause

/-- Binds a global. -/
def bindGlobal (registry : Proxy) (interface : Interface) (name version : UInt32)
    (listener : Option Listener) : StepM Bound := do
  let proxy ← registry.createVersioned interface version
  let id := ((← get).info proxy).id
  let object ← wrapBound interface listener proxy
  announce object registry Protocol.Core.bindRequest
    [.uint name, .str (some interface.name), .uint version, .newId id]

/-! ## Displays -/

/-- The connection of a display that is not destroyed. -/
def Display.live (d : Display) : StepM ConnectionRef := do
  match d.connection with
  | some connection => return connection
  | none => throw (.client .disconnected)

/-- The number of a queue that belongs to the display's connection. -/
def Display.queueId (d : Display) (queue : EventQueue) : StepM QueueId := do
  let connection ← d.live
  match queue.id with
  | some id =>
    if queue.connection = connection then return id else throw (.client .invalidQueue)
  | none => throw (.client .invalidQueue)

/-- A new registry. -/
def Display.getRegistry (d : Display) : StepM Bound := do
  let _ ← d.live
  let proxy ← d.proxy.create Protocol.Core.registry
  let id := ((← get).info proxy).id
  let object ← newRegistry proxy
  announce object d.proxy Protocol.Core.getRegistryRequest [.newId id]

/-- A new callback, done once the compositor has handled everything before it. -/
def Display.sync (d : Display) : StepM Bound := do
  let _ ← d.live
  let proxy ← d.proxy.create Protocol.Core.callback
  let id := ((← get).info proxy).id
  let (object, _) ← newCallback proxy
  announce object d.proxy Protocol.Core.syncRequest [.newId id]

/-- Closes the connection of a display. -/
def Display.destroy (d : Display) : SessionM Display := do
  match d.connection with
  | some connection => onChannel connection Channel.close
  | none => pure ()
  return { connection := none, proxy := { d.proxy with handle := none } }

/-- A new connection with a compositor at the other end, and its display. -/
def connectDisplay : SessionM (ConnectionRef × Display) := do
  let connection := (← get).channels.length
  modify fun s => { s with
    channels := s.channels ++ [{ connection := Connection.initial s.protocol, link := {} }] }
  let proxy := (← get).borrow connection (some displayId)
  addNote .displayReady
  return (connection, { connection := some connection, proxy })

/-! ## Queues and read intents -/

/-- A new queue. -/
def createQueue (connection : ConnectionRef) : StepM EventQueue := do
  let id ← tryConnection connection fun c => c.createQueue
  return { connection, id := some id }

/-- The queue goes away. -/
def EventQueue.destroy (q : EventQueue) : SessionM EventQueue := do
  match q.id with
  | some id =>
    if (← get).keeps q.connection then
      onConnection q.connection fun c => do return ((), ← c.destroyQueue id)
  | none => pure ()
  return { q with id := none }

/-- Whether a queue exists, and how many events wait in it. -/
def State.queueInfo (s : State) (q : EventQueue) : Bool × Nat :=
  match q.id with
  | some id =>
    if s.keeps q.connection then
      let queues := (s.channel q.connection).connection.queues
      (queues.contains id, queues.pending id)
    else (false, 0)
  | none => (false, 0)

/-- Declares the intention to read. -/
def prepareRead (connection : ConnectionRef) (queue : QueueId) : StepM Unit :=
  tryConnection connection fun c => pure ((c.prepareRead queue).map ((), ·))

/-- Reads with an intention declared before.  Other readers that have not read yet would have to
    do so first. -/
def readEvents (connection : ConnectionRef) : StepM Nat := do
  let result ← (onChannel connection Channel.readEvents :
    SessionM (Option (Except ClientError Nat)))
  match result with
  | some result => ofClient result
  | none => throw .stalled

/-- Gives up the intention to read. -/
def cancelRead (connection : ConnectionRef) : SessionM Unit :=
  onConnection connection fun c => pure ((), c.cancelRead)

/-- Sends what waits to be sent. -/
def flushConnection (connection : ConnectionRef) : StepM Nat :=
  tryChannel connection Channel.flush

end Wayland.Session
