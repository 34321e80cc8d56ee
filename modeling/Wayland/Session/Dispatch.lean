import Wayland.Session.Api

/-! # Calling handlers

Events in a queue are handed, one by one, to what is attached to their senders.  A handler of a
script runs steps; how steps are run is a parameter here (`Act`), so that this module does not
depend on the one that runs them.

Calls that block wait for the compositor.  Its script moves on only while the client waits, one
act at a time, so every session has one course.  Loops that nothing else bounds give up after some
rounds; how many is a parameter (`patience`), and nothing depends on it but when they give up.
-/

namespace Wayland.Session

open Wayland.Client (QueueId ClientError Delivery QueuedEvent)

/-- How the steps of a handler are run. -/
abbrev Act := List Step → SessionM (List Answer)

/-! ## Handlers -/

/-- The labels of the contexts of both types that are attached to an object. -/
def contextsOf (data : Option ObjectData) : Option String × Option String :=
  match data with
  | some (.listener .a label _ _ _) => (some label, none)
  | some (.listener .b label _ _ _) => (none, some label)
  | _ => (none, none)

/-- The labels of the contexts of the object with a number. -/
def State.objectContexts (s : State) (connection : ConnectionRef) (id : Option ObjectId) :
    Option String × Option String :=
  contextsOf ((s.channel connection).connection.objectContext? id)

/-- For each object among the arguments, the label of its type A context. -/
def State.resolve (s : State) (connection : ConnectionRef) (args : List Argument) :
    List (Option String) :=
  args.filterMap fun arg =>
    match arg with
    | .object id => some (s.objectContexts connection id).1
    | _ => none

/-- Runs the steps of a handler and lists the call. -/
def callHandler (act : Act) (label : String) (cause : Cause) (actions : List Step) :
    SessionM Unit := do
  let answers ← act actions
  modify fun s => { s with
    frame := { s.frame with calls := s.frame.calls.push { label, cause, actions := answers } } }

/-- The handlers of a registry. -/
def State.registryHandlers (s : State) (cell : Nat) : RegistryHandlers :=
  s.registries.getD cell {}

/-- Changes the handlers of a registry. -/
def modifyRegistry (cell : Nat) (f : RegistryHandlers → RegistryHandlers) : SessionM Unit :=
  modify fun s => { s with registries := s.registries.modify cell f }

/-- Changes the handler of a callback. -/
def modifyCallback (cell : Nat) (f : CallbackHandlers → CallbackHandlers) : SessionM Unit :=
  modify fun s => { s with callbacks := s.callbacks.modify cell f }

/-- A registry announces a global.  The handler is put back after the call, unless the call has
    set another one. -/
def handleGlobal (act : Act) (connection : ConnectionRef) (cell : Nat) (event : QueuedEvent) :
    SessionM Unit := do
  match event.args with
  | [.uint name, .str (some interface), .uint version] =>
    addNote (.globalAnnounced name interface version)
    let registry := (← get).borrow connection (some event.sender)
    let global : Global := { name, interface, version, registry }
    match ((← get).registryHandlers cell).global with
    | none => pure ()
    | some handler =>
      modifyRegistry cell fun r => { r with global := none }
      modify fun s => { s with globals := global :: s.globals }
      callHandler act handler.label (.global global.shown) handler.actions
      modify fun s => { s with globals := s.globals.tail }
      modifyRegistry cell fun r => { r with global := r.global <|> some handler }
  | args => addNote (.oddEvent "wl_registry" "global" args)

/-- A registry withdraws a global. -/
def handleGlobalRemove (act : Act) (cell : Nat) (event : QueuedEvent) : SessionM Unit := do
  match event.args with
  | [.uint name] =>
    addNote (.globalRemoved name)
    match ((← get).registryHandlers cell).globalRemove with
    | none => pure ()
    | some handler =>
      modifyRegistry cell fun r => { r with globalRemove := none }
      callHandler act handler.label (.removed name) handler.actions
      modifyRegistry cell fun r => { r with globalRemove := r.globalRemove <|> some handler }
  | args => addNote (.oddEvent "wl_registry" "global_remove" args)

/-- A callback is done; its handler is used up. -/
def handleDone (act : Act) (cell : Nat) (event : QueuedEvent) : SessionM Unit := do
  match event.args with
  | [.uint data] =>
    let handler := ((← get).callbacks.getD cell {}).done
    modifyCallback cell fun c => { c with done := none }
    match handler with
    | none => pure ()
    | some (.script handler) => callHandler act handler.label (.done data) handler.actions
    | some .signal => modifyCallback cell fun c => { c with signalled := true }
  | args => addNote (.oddEvent "wl_callback" "done" args)

/-- Hands an event to what is attached to its sender. -/
def deliver (act : Act) (connection : ConnectionRef) (d : Delivery ObjectData) :
    SessionM Unit := do
  let event := d.event
  let name := ((d.interface.event? event.opcode).map (·.name)).getD "?"
  addNote (.event d.interface.name event.sender name event.args)
  match d.data, event.opcode.toNat with
  | .listener _ label interface handlers actions, index =>
    if index < handlers then
      let resolved := (← get).resolve connection event.args
      callHandler act label (.event index event.sender event.opcode event.args resolved) actions
    else addNote (.noHandler event.opcode interface)
  | .registry cell, 0 => handleGlobal act connection cell event
  | .registry cell, 1 => handleGlobalRemove act cell event
  | .registry _, _ => addNote (.noHandler event.opcode Protocol.Core.registry.name)
  | .callback cell, 0 => handleDone act cell event
  | .callback _, _ => addNote (.noHandler event.opcode Protocol.Core.callback.name)

/-- Hands out the events of a queue until it is empty; answers how many, counting from `count`. -/
def dispatchFrom (act : Act) (connection : ConnectionRef) (queue : QueueId) :
    Nat → Nat → StepM Nat
  | 0, _ => throw .stalled
  | fuel + 1, count => do
    let next ← (onConnection connection (·.nextEvent queue) :
      SessionM (Except ClientError (Option (Delivery ObjectData))))
    match ← ofClient next with
    | none => return count
    | some delivery =>
      deliver act connection delivery
      dispatchFrom act connection queue fuel (count + 1)

/-- Hands out the events of a queue until it is empty. -/
def dispatchPending (patience : Nat) (act : Act) (connection : ConnectionRef) (queue : QueueId) :
    StepM Nat := dispatchFrom act connection queue (patience + 1) 0

/-! ## The compositor's script -/

/-- One act of a compositor's script, if it can be done: what arrived, what is left of the
    script. -/
def ServerAct.perform (link : Link) : ServerAct → Option (Received × Option ServerAct × Link)
  | .await 0 => some ({}, none, link)
  | .await count =>
    let (received, link) := link.serverReceive count
    match received.bytes.size with
    | 0 => none
    | n => some (received, if n < count then some (.await (count - n)) else none, link)
  | .send bytes fds => some ({}, none, (link.serverSend? bytes fds).getD link)

/-- Whether a script could move on, and the script and the pipes after one act. -/
def Serving.advance (serving : Serving) (link : Link) : Option (Serving × Link) :=
  match serving.acts with
  | [] => none
  | act :: acts =>
    (act.perform link).map fun (received, rest, link) =>
      ({ serving with
          acts := rest.toList ++ acts
          received := serving.received.append received },
        link)

/-- The first script of a connection that can move on does so. -/
def advanceFirst (connection : ConnectionRef) (link : Link) :
    List Serving → Option (List Serving × Link)
  | [] => none
  | serving :: rest =>
    let moved := if serving.connection = connection then serving.advance link else none
    match moved with
    | some (serving, link) => some (serving :: rest, link)
    | none => (advanceFirst connection link rest).map fun (rest, link) => (serving :: rest, link)

/-- The client waits: a script of its compositor moves on by one act.  Answers whether there was
    anything to do. -/
def serve (connection : ConnectionRef) : SessionM Bool := do
  let s ← get
  let channel := s.channel connection
  match advanceFirst connection channel.link s.serving with
  | none => return false
  | some (serving, link) =>
    set { s with serving, channels := s.channels.set connection { channel with link } }
    return true

/-- Waits until there is something to read. -/
def waitReadable (connection : ConnectionRef) : Nat → StepM Unit
  | 0 => throw .stalled
  | fuel + 1 => do
    if ((← get).channel connection).link.isReadable then return ()
    if ← (serve connection : SessionM Bool) then waitReadable connection fuel
    else throw .stalled

/-- Sends everything, waiting while the socket is full.  It does not matter if the compositor does
    not read any more.  `remark` says whether waiting is worth a note. -/
def flushAll (connection : ConnectionRef) (remark : Bool) : Nat → StepM Unit
  | 0 => throw .stalled
  | fuel + 1 => do
    match ← observing (flushConnection connection) with
    | .ok _ | .error (.client .brokenPipe) => return ()
    | .error (.client .wouldBlock) =>
      if remark then addNote .socketFull
      if ← (serve connection : SessionM Bool) then flushAll connection remark fuel
      else throw .stalled
    | .error cause => throw cause

/-! ## Calls that block -/

variable (patience : Nat)

/-- Declares the intention to read and sends everything; gives the intention up if that fails. -/
def prepareAndFlush (connection : ConnectionRef) (queue : QueueId) (remark : Bool) :
    StepM Unit := do
  prepareRead connection queue
  match ← observing (flushAll connection remark patience) with
  | .ok () => return ()
  | .error cause =>
    cancelRead connection
    throw cause

/-- Hands out the events of a queue; if it is empty, waits for the compositor and reads first. -/
def dispatchQueue (act : Act) (connection : ConnectionRef) (queue : QueueId) : StepM Nat := do
  match ← observing (prepareAndFlush patience connection queue false) with
  | .error (.client .eventsPending) => dispatchPending patience act connection queue
  | .error cause => throw cause
  | .ok () =>
    waitReadable connection patience
    let _ ← readEvents connection
    dispatchPending patience act connection queue

/-- Dispatches until a callback has been signalled; answers how many events, counting from
    `count`. -/
def dispatchUntil (act : Act) (connection : ConnectionRef) (queue : QueueId) (cell : Nat) :
    Nat → Nat → StepM Nat
  | 0, _ => throw .stalled
  | fuel + 1, count => do
    if ((← get).callbacks.getD cell {}).signalled then return count
    let more ← dispatchQueue patience act connection queue
    dispatchUntil act connection queue cell fuel (count + more)

/-- Waits until the compositor has handled everything sent so far. -/
def Display.roundtrip (d : Display) (act : Act) (queue : QueueId) : StepM Nat := do
  let connection ← d.live
  let proxy ← d.proxy.create Protocol.Core.callback
  match ← observing (proxy.setQueueId queue) with
  | .error cause =>
    let _ ← (proxy.destroy : SessionM Proxy)
    throw cause
  | .ok () =>
    let id := ((← get).info proxy).id
    let (callback, cell) ← (newCallback proxy : SessionM (Bound × Nat))
    modifyCallback cell fun c => { c with done := some .signal }
    let _ ← announce callback d.proxy Protocol.Core.syncRequest [.newId id]
    let dispatched ← observing (dispatchUntil patience act connection queue cell patience 0)
    callback.drop
    match dispatched with
    | .ok count => return count
    | .error cause => throw cause

/-! ## Tasks -/

/-- What a task waits for to dispatch a queue. -/
inductive Task
  /-- It has something to do. -/
  | ready
  /-- It has declared the intention to read and waits for something to read. -/
  | waiting
  | done (result : Except StepError Nat)

/-- The number of the queue that a task dispatches. -/
def Display.taskQueue (d : Display) (queue : Option EventQueue) : StepM QueueId := do
  match queue with
  | some queue => d.queueId queue
  | none =>
    let _ ← d.live
    return QueueId.default

/-- A task that is ready hands out what is pending; if there is nothing, it prepares to read. -/
def Task.start (act : Act) (d : Display) (queue : Option EventQueue) : SessionM Task := do
  let started ← (show StepM Task from do
    let connection ← d.live
    let id ← d.taskQueue queue
    match ← dispatchPending patience act connection id with
    | 0 =>
      prepareAndFlush patience connection id true
      return .waiting
    | count => return .done (.ok count)).run
  match started with
  | .ok task => return task
  | .error cause => return .done (.error cause)

/-- What reading makes of a task that waited. -/
def Task.afterRead (read : Except StepError Nat) : Task :=
  match read with
  | .ok _ => .ready
  | .error cause => .done (.error cause)

/-- Waits until there is something to read, for a task that waits. -/
def Task.read (connection : ConnectionRef) : SessionM Task := do
  let read ← (show StepM Nat from do
    waitReadable connection patience
    readEvents connection).run
  return Task.afterRead read

/-- Dispatches a queue by a task. -/
def runTask (act : Act) (connection : ConnectionRef) (d : Display) (queue : Option EventQueue) :
    Nat → Task → StepM Nat
  | 0, _ => throw .stalled
  | fuel + 1, task => do
    match task with
    | .done (.ok count) => return count
    | .done (.error cause) => throw cause
    | .ready =>
      runTask act connection d queue fuel (← (Task.start patience act d queue : SessionM Task))
    | .waiting =>
      runTask act connection d queue fuel (← (Task.read patience connection : SessionM Task))

/-- Two tasks, one for the default queue and one for another, take turns.  When both wait, what
    arrives is read once: the second task withdraws its intention first. -/
def runTasks (act : Act) (connection : ConnectionRef) (d : Display) (queue : EventQueue) :
    Nat → Task → Task → SessionM (List (Except StepError Nat))
  | 0, _, _ => return [.error .stalled, .error .stalled]
  | fuel + 1, first, second => do
    match first, second with
    | .done a, .done b => return [a, b]
    | .ready, second =>
      runTasks act connection d queue fuel (← Task.start patience act d none) second
    | first, .ready =>
      runTasks act connection d queue fuel first (← Task.start patience act d (some queue))
    | .waiting, .waiting =>
      match ← (waitReadable connection patience).run with
      | .error cause => return [.error cause, .error cause]
      | .ok () =>
        let _ ← onChannel connection Channel.readEvents
        runTasks act connection d queue fuel (← Task.read patience connection) .ready
    | .waiting, second =>
      runTasks act connection d queue fuel (← Task.read patience connection) second
    | first, .waiting =>
      runTasks act connection d queue fuel first (← Task.read patience connection)

end Wayland.Session
