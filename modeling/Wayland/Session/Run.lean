import Wayland.Protocol.Known
import Wayland.Session.Dispatch

/-! # Running scripts

`execute` says what each step does, `runScript` runs a whole script.  A session starts with one
display named `d`.  Every step has a frame of its own for the calls and notes made while it runs;
the steps of a handler have theirs.
-/

namespace Wayland.Session

open Wayland.Client (QueueId ClientError FatalError displayId)

/-! ## Names -/

/-- The object that a name stands for.  `@d` is the object `wl_display` of display `d`. -/
def proxyNamed (name : String) : StepM Proxy := do
  match name.toList with
  | '@' :: display =>
    match (← get).displays.find? (String.ofList display) with
    | some d => return d.proxy
    | none => throw (.noSuchName name)
  | _ => return (← named State.proxies name).proxy

/-- A proxy that a name stands for and that is no part of something else. -/
def plainNamed (name : String) : StepM Proxy := do
  match ← named State.proxies name with
  | .plain p => return p
  | _ => throw (.noSuchName name)

/-- An owning proxy that a name stands for and that is no part of something else. -/
def ownedNamed (name : String) : StepM Proxy := do
  let p ← plainNamed name
  if p.owning then return p else throw (.noSuchName name)

/-- The handlers of the registry that a name stands for. -/
def registryNamed (name : String) : StepM (Proxy × Nat) := do
  match ← named State.proxies name with
  | .registry p cell => return (p, cell)
  | _ => throw (.noSuchName name)

/-- The handler of the callback that a name stands for. -/
def callbackNamed (name : String) : StepM Nat := do
  match ← named State.proxies name with
  | .callback _ cell => return cell
  | _ => throw (.noSuchName name)

/-- The connection that a step works on. -/
def connectionOf (source : ConnectionSource) : StepM ConnectionRef := do
  match source with
  | .held name => named State.held name
  | .display name =>
    match (← named State.displays name).connection with
    | some connection => return connection
    | none => throw (.noSuchName "connection")

/-- The queue that a step works on, if it names one. -/
def queueNamed (queue : Option String) : StepM (Option EventQueue) := do
  match queue with
  | some name => return some (← named State.queues name)
  | none => return none

/-- Puts something else under a proxy name, without dropping what was there. -/
def replaceProxy (name : String) (b : Bound) : SessionM Unit :=
  modify fun s => { s with proxies := s.proxies.insert name b }

/-- Binds a proxy name; what it stood for before is dropped afterwards.  The answer is what the
    new proxy says about itself then. -/
def bindProxy (name : String) (b : Bound) : SessionM Payload := do
  let old := (← get).proxies.find? name
  replaceProxy name b
  match old with
  | some old => old.drop
  | none => pure ()
  return .proxy ((← get).info b.proxy)

/-- Binds a queue name. -/
def bindQueue (name : String) (q : EventQueue) : SessionM Unit := do
  let old := (← get).queues.find? name
  modify fun s => { s with queues := s.queues.insert name q }
  match old with
  | some old => let _ ← old.destroy
  | none => pure ()

/-- The compositor's end of a connection is closed. -/
def closeServer (connection : ConnectionRef) : SessionM Unit :=
  onChannel connection fun channel =>
    pure ((), { channel with link := channel.link.closeServer })

/-- Opens a connection and binds the names of its display and of its compositor's end. -/
def openDisplay (name : String) : SessionM Unit := do
  let (connection, display) ← connectDisplay
  let oldDisplay := (← get).displays.find? name
  let oldServer := (← get).servers.find? name
  modify fun s => { s with
    displays := s.displays.insert name display
    servers := s.servers.insert name connection }
  match oldDisplay with
  | some old => let _ ← old.destroy
  | none => pure ()
  match oldServer with
  | some old => closeServer old
  | none => pure ()

/-- Binds the name of a read intent; the intent it stood for before is given up. -/
def bindIntent (name : String) (connection : ConnectionRef) : SessionM Unit := do
  let old := (← get).intents.find? name
  modify fun s => { s with intents := s.intents.insert name connection }
  match old with
  | some old => cancelRead old
  | none => pure ()

/-- Uses up a read intent. -/
def takeIntent (name : String) : StepM ConnectionRef := do
  let connection ← named State.intents name
  modify fun s => { s with intents := s.intents.erase name }
  return connection

/-- Uses up several read intents, or gives up those found before a name that is not bound. -/
def takeIntents : List String → StepM (List ConnectionRef)
  | [] => return []
  | name :: names => do
    let connection ← takeIntent name
    match ← observing (takeIntents names) with
    | .ok connections => return connection :: connections
    | .error cause =>
      cancelRead connection
      throw cause

/-! ## Parts of steps -/

/-- How the thing under a proxy name is shown. -/
def State.shownBound (s : State) : Bound → String
  | .plain p => p.shown
  | .registry p cell =>
    let handlers := s.registryHandlers cell
    "Registry \x7b proxy: " ++ p.shown ++ ", handlers: RegistryHandlers \x7b global: "
      ++ toString handlers.global.isSome ++ ", global_remove: "
      ++ toString handlers.globalRemove.isSome ++ " \x7d \x7d"
  | .callback p cell =>
    "Callback \x7b proxy: " ++ p.shown ++ ", handlers: CallbackHandlers \x7b done: "
      ++ toString (s.callbacks.getD cell {}).done.isSome ++ " \x7d \x7d"

/-- How a table of handlers is shown. -/
def shownListener (interface : Interface) (handlers : Nat) : String :=
  "Listener \x7b interface: " ++ Text.quoted interface.name ++ ", handlers: " ++ toString handlers
    ++ " \x7d"

/-- What the compositor received, as counts. -/
def Received.summary (r : Received) (eof : Bool) : Summary where
  length := r.bytes.size
  sum := r.bytes.foldl (fun sum byte => sum + byte.toUInt32) 0
  fds := r.fds
  eof := eof

/-- Makes the same request several times. -/
def marshalTimes (p : Proxy) (opcode : UInt16) (args : List Argument) : Nat → StepM Unit
  | 0 => return ()
  | times + 1 => do
    p.marshal opcode args
    marshalTimes p opcode args times

/-- Runs a step part while a display, and perhaps a queue, counts as being dispatched. -/
def whileDispatching {α : Type} (display : String) (queue : Option String) (x : StepM α) :
    StepM α := do
  modify fun s => { s with dispatching := (display, queue) :: s.dispatching }
  let result ← observing x
  modify fun s => { s with dispatching := s.dispatching.tail }
  ofExcept result

/-- A display that is being dispatched cannot go away. -/
def requireIdleDisplay (name : String) : StepM Unit := do
  if (← get).dispatching.any (·.1 == name) then throw .busy

/-- A queue that is being dispatched cannot go away. -/
def requireIdleQueue (name : String) : StepM Unit := do
  if (← get).dispatching.any (·.2 == some name) then throw .busy

variable (patience : Nat)

/-- The call of a step that may block. -/
def BlockingCall.run (act : Act) (d : Display) (queue : Option EventQueue) :
    BlockingCall → StepM Payload
  | .dispatch _ => do
    let id ← d.taskQueue queue
    return .count (← dispatchQueue patience act (← d.live) id)
  | .roundtrip _ => do return .count (← d.roundtrip patience act (← d.taskQueue queue))
  | .asyncReadable => do
    waitReadable (← d.live) patience
    return .null
  | .asyncDispatch _ => do
    return .count (← runTask patience act (← d.live) d queue patience .ready)
  | .asyncJoin _ => do
    let connection ← d.live
    match queue with
    | some queue =>
      return .results (← runTasks patience act connection d queue patience .ready .ready)
    | none => throw .stalled

/-- The name of the queue that a call works on. -/
def BlockingCall.queueName : BlockingCall → Option String
  | .dispatch queue | .roundtrip queue | .asyncDispatch queue => queue
  | .asyncJoin queue => some queue
  | .asyncReadable => none

/-- What is left of a script once the call is over. -/
def serveRest (connection : ConnectionRef) : Nat → SessionM Unit
  | 0 => return ()
  | fuel + 1 => do
    if ← serve connection then serveRest connection fuel

/-- Runs a call beside a script of the compositor. -/
def serving (connection : ConnectionRef) (acts : List ServerAct) (call : StepM Payload) :
    StepM Payload := do
  let before := (← get).serving
  modify fun s => { s with serving := s.serving ++ [{ connection, acts }] }
  let result ← observing call
  serveRest connection patience
  let received := ((← get).serving[before.length]?.map (·.received)).getD {}
  modify fun s => { s with serving := s.serving.take before.length }
  return .served result (received.summary false)

/-- Readers on several threads: each withdraws its intention, the last one of each connection
    reads, and the others see how that went. -/
def readTogether (connections : List ConnectionRef) : SessionM (List (Except StepError Nat)) := do
  let notes := (← get).frame.notes
  let results ← connections.mapM fun connection => do
    return (connection, ← onChannel connection Channel.readEvents)
  modify fun s => { s with frame := { s.frame with notes } }
  let s ← get
  return results.map fun (connection, result) =>
    match result with
    | some result => result.mapError .client
    | none => ((s.channel connection).connection.check.map fun _ => 0).mapError .client

/-- Byte counts in ascending order, then failures. -/
def sortResults (results : List (Except StepError Nat)) : List (Except StepError Nat) :=
  let counts := results.filterMap fun
    | .ok n => some n
    | .error _ => none
  let failures := results.filter fun
    | .ok _ => false
    | .error _ => true
  (counts.mergeSort (· ≤ ·)).map .ok ++ failures

/-- The compositor reads everything and the client sends, until the client has nothing to send. -/
def drainFrom (d : Display) (server : ConnectionRef) : Nat → Received → StepM Received
  | 0, _ => throw .stalled
  | fuel + 1, received => do
    let more ← (onChannel server fun channel =>
      let (more, link) := channel.link.serverReceiveAll
      pure (more, { channel with link }) : SessionM Received)
    let received := received.append more
    let connection ← d.live
    match ← observing (flushConnection connection) with
    | .ok 0 => return received
    | .ok _ | .error (.client .wouldBlock) => drainFrom d server fuel received
    | .error cause => throw cause

/-! ## Steps -/

/-- Does what a step says. -/
def execute (act : Act) : Step → StepM Payload
  -- Displays
  | .connect as => do
    openDisplay as
    return .null
  | .valid display => do
    let d ← named State.displays display
    let s ← get
    return .bool (d.connection.any fun c => !(s.channel c).connection.closed)
  | .getError display => do
    let d ← named State.displays display
    let s ← get
    return .fatal (d.connection.bind fun c => (s.channel c).connection.error)
  | .hasFd display => do return .bool (← named State.displays display).connection.isSome
  | .flush display => do
    let d ← named State.displays display
    return .count (← flushConnection (← d.live))
  | .dispatchPending display queue => do
    let d ← named State.displays display
    let q ← queueNamed queue
    whileDispatching display queue do
      let id ← d.taskQueue q
      return .count (← dispatchPending patience act (← d.live) id)
  | .blocking display call script => do
    let d ← named State.displays display
    let q ← queueNamed call.queueName
    let run := whileDispatching display call.queueName (call.run patience act d q)
    match script with
    | none => run
    | some acts => serving patience (← named State.servers display) acts run
  | .destroyDisplay display => do
    let d ← named State.displays display
    requireIdleDisplay display
    let d ← (d.destroy : SessionM Display)
    modify fun s => { s with displays := s.displays.insert display d }
    return .null
  | .dropDisplay display => do
    let d ← named State.displays display
    requireIdleDisplay display
    let _ ← (d.destroy : SessionM Display)
    modify fun s => { s with displays := s.displays.erase display }
    return .null
  | .getRegistry display as => do
    let d ← named State.displays display
    bindProxy as (← d.getRegistry)
  | .sync display as => do
    let d ← named State.displays display
    bindProxy as (← d.sync)
  -- Connections
  | .hold display as => do
    let d ← named State.displays display
    match d.connection with
    | some connection =>
      modify fun s => { s with held := s.held.insert as connection }
      return .bool true
    | none => return .bool false
  | .release connection => do
    let bound := ((← get).held.find? connection).isSome
    modify fun s => { s with held := s.held.erase connection }
    return .bool bound
  | .connectionInfo connection => do
    let c ← named State.held connection
    let s ← get
    let state := (s.channel c).connection
    return .connection state.closed state.error (s.held.namesWhere (· == c))
  | .connectionFlush connection => do
    return .count (← flushConnection (← named State.held connection))
  | .objectInfo source id => do
    let c ← connectionOf source
    let entry := ((← get).channel c).connection.objects.live? id
    return .object (entry.map fun entry => (entry.interface.name, entry.version))
  | .objectContext source id => do
    let c ← connectionOf source
    let (a, b) := (← get).objectContexts c id
    return .contexts a b
  | .borrow source id as => do
    let c ← connectionOf source
    bindProxy as (.plain ((← get).borrow c id))
  | .adopt source id interface as => do
    let c ← connectionOf source
    let interface ← interfaceNamed interface
    bindProxy as (.plain (← adoptObject c id interface))
  -- Proxies
  | .create factory interface version as => do
    let factory ← proxyNamed factory
    let interface ← interfaceNamed interface
    let p ← match version with
      | some version => factory.createVersioned interface version
      | none => factory.create interface
    bindProxy as (.plain p)
  | .null owned as => bindProxy as (.plain { owning := owned })
  | .marshal proxy opcode args times => do
    marshalTimes (← proxyNamed proxy) opcode args times
    return .null
  | .info proxy => do
    let p ← proxyNamed proxy
    return .proxy ((← get).info p)
  | .debug proxy => do
    match (← get).proxies.find? proxy with
    | some b => return .text ((← get).shownBound b)
    | none => return .text (← proxyNamed proxy).shown
  | .eq a b => do
    let p ← proxyNamed a
    let q ← proxyNamed b
    return .bool (p.same q)
  | .listen proxy listener => do
    let p ← proxyNamed proxy
    let own := (((← get).valid? p).map (·.object.interface)).getD Protocol.Known.surface
    return .bool (← p.listen own listener)
  | .listenerDebug interface handlers => do
    let interface ← interfaceNamed interface
    return .text (shownListener interface (handlers.getD interface.events.length))
  | .context proxy => do
    let p ← proxyNamed proxy
    let (a, b) := contextsOf ((← get).attached? p)
    return .contexts a b
  | .setQueue proxy queue => do
    let p ← proxyNamed proxy
    p.setQueue (← named State.queues queue)
    return .null
  | .resetQueue proxy => do
    (← proxyNamed proxy).setQueueId QueueId.default
    return .null
  | .destroy proxy => do
    let b ← named State.proxies proxy
    let p ← (b.proxy.destroy : SessionM Proxy)
    replaceProxy proxy (b.withProxy p)
    return .null
  | .destroyWithRequest proxy opcode args => do
    let p ← ownedNamed proxy
    let (result, p) ← (p.destroyWithRequest opcode args :
      SessionM (Except StepError Unit × Proxy))
    replaceProxy proxy (.plain p)
    ofExcept result
    return .null
  | .drop proxy => do
    let b ← named State.proxies proxy
    modify fun s => { s with proxies := s.proxies.erase proxy }
    b.drop
    return .null
  | .take proxy as => do
    let p ← plainNamed proxy
    replaceProxy proxy (.plain { p with handle := none })
    bindProxy as (.plain p)
  | .wrap proxy interface as => do
    let p ← ownedNamed proxy
    let interface ← boundInterface interface
    modify fun s => { s with proxies := s.proxies.erase proxy }
    bindProxy as (← wrapBound interface none p)
  -- Registries and callbacks
  | .bind registry interface name version listener as => do
    let (registry, _) ← registryNamed registry
    let interface ← boundInterface interface
    bindProxy as (← bindGlobal registry interface name version listener)
  | .globalBind interface version listener as => do
    match (← get).globals with
    | [] => throw (.noSuchName "global")
    | global :: _ =>
      let interface ← boundInterface interface
      if global.interface ≠ interface.name then
        throw (.client (.wrongInterface interface.name global.interface))
      let version := min (min version global.version) interface.version
      bindProxy as (← bindGlobal global.registry interface global.name version listener)
  | .onGlobal proxy handler => do
    let (_, cell) ← registryNamed proxy
    modifyRegistry cell fun r => { r with global := some handler }
    return .null
  | .onGlobalRemove proxy handler => do
    let (_, cell) ← registryNamed proxy
    modifyRegistry cell fun r => { r with globalRemove := some handler }
    return .null
  | .onDone proxy handler => do
    let cell ← callbackNamed proxy
    modifyCallback cell fun c => { c with done := some (.script handler) }
    return .null
  -- Queues
  | .createQueue display as => do
    let d ← named State.displays display
    let q ← createQueue (← d.live)
    bindQueue as q
    return .text q.shown
  | .queueInfo queue => do
    let q ← named State.queues queue
    let (valid, pending) := (← get).queueInfo q
    return .queue valid pending q.shown
  | .queueEq a b => do
    let p ← named State.queues a
    let q ← named State.queues b
    return .bool (p.same q)
  | .destroyQueue queue => do
    let q ← named State.queues queue
    requireIdleQueue queue
    let q ← (q.destroy : SessionM EventQueue)
    modify fun s => { s with queues := s.queues.insert queue q }
    return .null
  | .dropQueue queue => do
    let q ← named State.queues queue
    requireIdleQueue queue
    let _ ← (q.destroy : SessionM EventQueue)
    modify fun s => { s with queues := s.queues.erase queue }
    return .null
  -- Reading
  | .prepareRead display queue as => do
    let d ← named State.displays display
    let q ← queueNamed queue
    let id ← d.taskQueue q
    let connection ← d.live
    prepareRead connection id
    bindIntent as connection
    return .bool true
  | .readEvents intent => do return .count (← readEvents (← takeIntent intent))
  | .cancelRead intent | .dropIntent intent => do
    cancelRead (← takeIntent intent)
    return .null
  | .readTogether intents => do
    let connections ← takeIntents intents
    return .results (sortResults (← readTogether connections))
  | .pump display => do
    let d ← named State.displays display
    whileDispatching display none do
      let connection ← d.live
      prepareRead connection QueueId.default
      let read ← readEvents connection
      let dispatched ← dispatchPending patience act connection QueueId.default
      return .pumped read dispatched
  -- The compositor
  | .serverSend display bytes fds => do
    let server ← named State.servers display
    let sent ← (onChannel server fun channel =>
      match channel.link.serverSend? bytes fds with
      | some link => pure (true, { channel with link })
      | none => pure (false, channel) : SessionM Bool)
    return if sent then .count bytes.size else .brokenPipe
  | .serverReceive display summary => do
    let server ← named State.servers display
    let (received, eof) ← (onChannel server fun channel =>
      let (received, link) := channel.link.serverReceiveAll
      pure ((received, !link.clientOpen), { channel with link }) : SessionM (Received × Bool))
    return if summary then .summary (received.summary eof) else .received received eof
  | .drain display => do
    let d ← named State.displays display
    let server ← named State.servers display
    let received ← drainFrom d server patience {}
    return .summary (received.summary !((← get).channel server).link.clientOpen)
  | .serverClose display => do
    let server ← named State.servers display
    modify fun s => { s with servers := s.servers.erase display }
    closeServer server
    return .null

/-! ## Scripts -/

/-- Runs a step in a frame of its own. -/
def runStep (act : Act) (step : Step) : SessionM Answer := do
  let outer := (← get).frame
  modify fun s => { s with frame := {} }
  let outcome ← (execute patience act step).run
  let inner := (← get).frame
  modify fun s => { s with frame := outer }
  return .mk outcome inner.calls.toList inner.notes.toList

/-- Runs steps one after the other, whether or not they succeed.  Handlers may call handlers, at
    most `depth` deep, and loops give up after `patience` rounds. -/
def runSteps : Nat → Act
  | 0, steps => return steps.map fun _ => .mk (.error .stalled) [] []
  | depth + 1, steps => steps.mapM (runStep patience (runSteps depth))

/-- The session that every script starts with. -/
def State.start (protocol : Protocol) : State :=
  { ((openDisplay "d").run { protocol }).2 with frame := {} }

/-- More rounds than any loop of a script takes, and deeper than its handlers call handlers. -/
def ample : Nat := 1000000

/-- The answers of a script, in a program that knows the tables of `protocol`. -/
def runScript (protocol : Protocol) (steps : List Step) : List Answer :=
  ((runSteps ample ample steps).run (State.start protocol)).1

end Wayland.Session
