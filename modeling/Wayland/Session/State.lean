import Wayland.Session.Answer

/-! # The state of a session

What exists while a script runs: connections with their sockets, and the things that names stand
for.  A connection is referred to by its place among the connections of the session.  Displays,
held connections and read intents keep it alive; proxies and queues remember it, but they do not
keep it alive.
-/

namespace Wayland.Session

open Client (Connection ObjectRef QueueId Logged Note ClientError)

/-! ## Names -/

/-- Things under names. -/
structure Names (α : Type) where
  entries : List (String × α) := []

namespace Names

variable {α : Type}

def find? (n : Names α) (name : String) : Option α := n.entries.lookup name

def erase (n : Names α) (name : String) : Names α :=
  { entries := n.entries.filter fun entry => !(entry.1 == name) }

/-- Binds a name, whatever it stood for before. -/
def insert (n : Names α) (name : String) (a : α) : Names α :=
  { entries := (name, a) :: (n.erase name).entries }

/-- Whether something under some name satisfies a condition. -/
def any (n : Names α) (condition : α → Bool) : Bool := n.entries.any fun entry => condition entry.2

/-- The names of everything that satisfies a condition, sorted. -/
def namesWhere (n : Names α) (condition : α → Bool) : List String :=
  ((n.entries.filter fun entry => condition entry.2).map Prod.fst).mergeSort fun a b => !(b < a)

end Names

/-! ## Proxies, queues and displays -/

/-- A connection, by its place among those of the session. -/
abbrev ConnectionRef := Nat

/-- An object of a connection. -/
structure Handle where
  connection : ConnectionRef
  object : ObjectRef
  deriving DecidableEq

/-- What an application holds of an object.  An owning proxy ends the life of the object when it
    goes away. -/
structure Proxy where
  handle : Option Handle := none
  owning : Bool
  deriving DecidableEq

namespace Proxy

/-- How a proxy is shown. -/
def shown (p : Proxy) : String :=
  match p.handle with
  | some h => s!"Proxy({h.object.interface.name}@{h.object.id}, owning: {p.owning})"
  | none => "Proxy(<invalid>)"

/-- Two proxies are equal if they stand for the same object of the same connection; a proxy that
    stands for nothing equals none. -/
def same (p q : Proxy) : Bool :=
  match p.handle, q.handle with
  | some g, some h =>
    g.connection == h.connection && g.object.id == h.object.id
      && g.object.generation == h.object.generation
  | _, _ => false

end Proxy

/-- What an application holds of an event queue. -/
structure EventQueue where
  connection : ConnectionRef
  id : Option QueueId

namespace EventQueue

/-- How a queue is shown. -/
def shown (q : EventQueue) : String :=
  let id := match q.id with
    | some id => s!"Some({id.shown})"
    | none => "None"
  "EventQueue \x7b connection: (Weak), id: " ++ id ++ " \x7d"

/-- Two queues are equal if they are the same queue of the same connection, and not destroyed. -/
def same (p q : EventQueue) : Bool := p.id.isSome && p.id == q.id && p.connection == q.connection

end EventQueue

/-- The entry to a connection; destroyed, it has none. -/
structure Display where
  connection : Option ConnectionRef
  /-- A borrowing proxy of `wl_display`. -/
  proxy : Proxy

/-- The handlers of a registry.  A handler is absent while it runs. -/
structure RegistryHandlers where
  global : Option Handler := none
  globalRemove : Option Handler := none

/-- What happens when a callback is done. -/
inductive DoneHandler
  | script (handler : Handler)
  /-- A roundtrip waits for it. -/
  | signal

/-- The handler of a callback; it is used once. -/
structure CallbackHandlers where
  done : Option DoneHandler := none
  /-- Whether a roundtrip was told that the callback is done. -/
  signalled : Bool := false

/-- What is attached to an object. -/
inductive ObjectData
  | listener (context : ContextKind) (label interface : String) (handlers : Nat)
      (actions : List Step)
  /-- The handlers of a registry, by their place. -/
  | registry (cell : Nat)
  /-- The handlers of a callback, by their place. -/
  | callback (cell : Nat)

/-- What a proxy name stands for. -/
inductive Bound
  | plain (proxy : Proxy)
  | registry (proxy : Proxy) (cell : Nat)
  | callback (proxy : Proxy) (cell : Nat)

def Bound.proxy : Bound → Proxy
  | .plain p | .registry p _ | .callback p _ => p

/-- The same sort of thing around another proxy. -/
def Bound.withProxy (b : Bound) (p : Proxy) : Bound :=
  match b with
  | .plain _ => .plain p
  | .registry _ cell => .registry p cell
  | .callback _ cell => .callback p cell

/-- A global that a registry announces. -/
structure Global where
  name : UInt32
  interface : String
  version : UInt32
  /-- A borrowing proxy of the registry. -/
  registry : Proxy

/-- How a global is shown. -/
def Global.shown (g : Global) : String :=
  s!"Global \x7b name: {g.name}, interface: " ++ Text.quoted g.interface
    ++ s!", version: {g.version}, registry: " ++ g.registry.shown ++ " \x7d"

/-! ## The session -/

/-- A connection with its socket. -/
structure Channel where
  connection : Connection ObjectData
  link : Link

instance : Inhabited Channel := ⟨⟨Connection.initial default, default⟩⟩

/-- A script of the compositor that is being run, and what it has received so far. -/
structure Serving where
  connection : ConnectionRef
  acts : List ServerAct
  received : Received := {}

/-- What the current step has to tell besides its result. -/
structure Frame where
  calls : Array (Call Answer) := #[]
  notes : Array Note := #[]

/-- Everything that exists while a script runs. -/
structure State where
  protocol : Protocol
  channels : List Channel := []
  displays : Names Display := {}
  /-- The compositor's ends. -/
  servers : Names ConnectionRef := {}
  proxies : Names Bound := {}
  queues : Names EventQueue := {}
  /-- Connections held by name. -/
  held : Names ConnectionRef := {}
  intents : Names ConnectionRef := {}
  registries : List RegistryHandlers := []
  callbacks : List CallbackHandlers := []
  /-- Globals that are being handled, the innermost first. -/
  globals : List Global := []
  /-- Displays and queues that are being dispatched. -/
  dispatching : List (String × Option String) := []
  serving : List Serving := []
  frame : Frame := {}

/-- Computations on a session. -/
abbrev SessionM := StateM State

/-- Computations on a session that may fail; what they did before they failed stays done. -/
abbrev StepM := ExceptT StepError SessionM

namespace State

/-- Whether something keeps a connection alive. -/
def keeps (s : State) (connection : ConnectionRef) : Bool :=
  s.displays.any (·.connection == some connection)
    || s.held.any (· == connection) || s.intents.any (· == connection)

/-- The state of a connection. -/
def channel (s : State) (connection : ConnectionRef) : Channel := s.channels.getD connection default

end State

/-! ## Basic computations -/

/-- Makes notes in the current step. -/
def addNotes (notes : List Note) : SessionM Unit :=
  modify fun s => { s with frame := { s.frame with notes := s.frame.notes ++ notes } }

/-- Makes a note in the current step. -/
def addNote (note : Note) : SessionM Unit := addNotes [note]

/-- Does something with a connection and its socket. -/
def onChannel {α : Type} (connection : ConnectionRef) (f : Channel → Logged (α × Channel)) :
    SessionM α := do
  let result := f ((← get).channel connection)
  modify fun s => { s with channels := s.channels.set connection result.value.2 }
  addNotes result.notes
  return result.value.1

/-- Does something with the state of a connection alone. -/
def onConnection {α : Type} (connection : ConnectionRef)
    (f : Connection ObjectData → Logged (α × Connection ObjectData)) : SessionM α :=
  onChannel connection fun channel => do
    let (a, connection) ← f channel.connection
    return (a, { channel with connection })

/-- The result of an operation, or its failure. -/
def ofClient {α : Type} (result : Except ClientError α) : StepM α :=
  match result with
  | .ok a => return a
  | .error cause => throw (.client cause)

/-- Does something with a connection and its socket that may fail. -/
def tryChannel {α : Type} (connection : ConnectionRef)
    (f : Channel → Logged (Except ClientError α × Channel)) : StepM α := do
  let result ← (onChannel connection f : SessionM (Except ClientError α))
  ofClient result

/-- Does something with a connection that changes it only if it succeeds. -/
def tryConnection {α : Type} (connection : ConnectionRef)
    (f : Connection ObjectData → Logged (Except ClientError (α × Connection ObjectData))) :
    StepM α :=
  tryChannel connection fun channel => do
    match ← f channel.connection with
    | .ok (a, connection) => return (.ok a, { channel with connection })
    | .error cause => return (.error cause, channel)

/-- The thing that a name stands for in a table of the session. -/
def named {α : Type} (table : State → Names α) (name : String) : StepM α := do
  match (table (← get)).find? name with
  | some a => return a
  | none => throw (.noSuchName name)

/-- The interface with a name. -/
def interfaceNamed (name : String) : StepM Interface := do
  match (← get).protocol.find? name with
  | some interface => return interface
  | none => throw (.noSuchName name)

end Wayland.Session
