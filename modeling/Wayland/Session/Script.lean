import Wayland.Argument

/-! # Scripts

A session is driven by a script: a list of steps, each of which calls the client or plays the
compositor.  Things live under names, in one table per sort of thing.  Handlers of events are
scripts themselves, so a whole session is a value that can be run, compared and reasoned about.
-/

namespace Wayland.Session

/-- An application attaches one of two types of context to an object. -/
inductive ContextKind
  | a | b
  deriving DecidableEq

/-- What a listener does: `σ` is the type of the steps that its handlers run. -/
structure ListenerScript (σ : Type) where
  label : String
  context : ContextKind := .a
  /-- The interface whose events it is for, if it is not that of its object. -/
  interface : Option String := none
  /-- The number of handlers, if it is not that of the interface's events. -/
  handlers : Option Nat := none
  actions : List σ := []

/-- A handler of a registry or callback. -/
structure HandlerScript (σ : Type) where
  label : String
  actions : List σ := []

/-- What the compositor does while a call of the client blocks. -/
inductive ServerAct
  /-- It waits until it has received `count` more bytes. -/
  | await (count : Nat)
  | send (bytes : Array UInt8) (fds : List Fd)

/-- Calls that may block until the compositor sends something. -/
inductive BlockingCall
  | dispatch (queue : Option String)
  | roundtrip (queue : Option String)
  | asyncReadable
  | asyncDispatch (queue : Option String)
  /-- Dispatches the default queue and another one by two tasks at once. -/
  | asyncJoin (queue : String)

/-- Where a step finds its connection. -/
inductive ConnectionSource
  | held (name : String)
  | display (name : String)

/-- One step of a script.  `as` is the name that the result is bound to. -/
inductive Step
  -- Displays
  | connect (as : String)
  | valid (display : String)
  | getError (display : String)
  | hasFd (display : String)
  | flush (display : String)
  | dispatchPending (display : String) (queue : Option String)
  | blocking (display : String) (call : BlockingCall) (server : Option (List ServerAct))
  | destroyDisplay (display : String)
  | dropDisplay (display : String)
  | getRegistry (display as : String)
  | sync (display as : String)
  -- Connections
  | hold (display as : String)
  | release (connection : String)
  | connectionInfo (connection : String)
  | connectionFlush (connection : String)
  | objectInfo (source : ConnectionSource) (id : ObjectId)
  | objectContext (source : ConnectionSource) (id : Option ObjectId)
  | borrow (source : ConnectionSource) (id : Option ObjectId) (as : String)
  | adopt (source : ConnectionSource) (id : ObjectId) (interface as : String)
  -- Proxies
  | create (factory interface : String) (version : Option UInt32) (as : String)
  | null (owned : Bool) (as : String)
  | marshal (proxy : String) (opcode : UInt16) (args : List Argument) (times : Nat)
  | info (proxy : String)
  | debug (proxy : String)
  | eq (a b : String)
  | listen (proxy : String) (listener : ListenerScript Step)
  | listenerDebug (interface : String) (handlers : Option Nat)
  | context (proxy : String)
  | setQueue (proxy queue : String)
  | resetQueue (proxy : String)
  | destroy (proxy : String)
  | destroyWithRequest (proxy : String) (opcode : UInt16) (args : List Argument)
  | drop (proxy : String)
  | take (proxy as : String)
  | wrap (proxy interface as : String)
  -- Registries and callbacks
  | bind (registry interface : String) (name version : UInt32)
      (listener : Option (ListenerScript Step)) (as : String)
  | globalBind (interface : String) (version : UInt32)
      (listener : Option (ListenerScript Step)) (as : String)
  | onGlobal (proxy : String) (handler : HandlerScript Step)
  | onGlobalRemove (proxy : String) (handler : HandlerScript Step)
  | onDone (proxy : String) (handler : HandlerScript Step)
  -- Queues
  | createQueue (display as : String)
  | queueInfo (queue : String)
  | queueEq (a b : String)
  | destroyQueue (queue : String)
  | dropQueue (queue : String)
  -- Reading
  | prepareRead (display : String) (queue : Option String) (as : String)
  | readEvents (intent : String)
  | cancelRead (intent : String)
  | dropIntent (intent : String)
  | readTogether (intents : List String)
  | pump (display : String)
  -- The compositor
  | serverSend (display : String) (bytes : Array UInt8) (fds : List Fd)
  | serverReceive (display : String) (summary : Bool)
  | drain (display : String)
  | serverClose (display : String)

/-- What a listener of a script does. -/
abbrev Listener := ListenerScript Step

/-- What a handler of a script does. -/
abbrev Handler := HandlerScript Step

end Wayland.Session
