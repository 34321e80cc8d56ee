import Wayland.Client.Error

/-! # The log of a client

Operations leave notes about what they did.  A `Note` says what happened, `Note.line` words it.
`Logged α` is a result together with the notes made on the way; `Logged.value` forgets them, so
facts about results do not mention the log at all.
-/

namespace Wayland.Client

/-- The number of an event queue.  A client counts its queues with 32 bits, so this is exact as long
    as it creates fewer than 2^32 of them; numbers are never used again. -/
abbrev QueueId := Nat

/-- How a queue is named in the log. -/
def QueueId.shown (queue : QueueId) : String := s!"QueueId({queue})"

/-- How much a note matters. -/
inductive Level
  | trace | debug | warn | error
  deriving DecidableEq

def Level.name : Level → String
  | .trace => "TRACE"
  | .debug => "DEBUG"
  | .warn => "WARN"
  | .error => "ERROR"

/-- Something worth telling. -/
inductive Note
  /-- A request was made, whether or not its arguments fit. -/
  | request (interface : String) (id : ObjectId) (name : String) (args : List Argument)
  /-- An event is about to be handled. -/
  | event (interface : String) (id : ObjectId) (name : String) (args : List Argument)
  | objectCreated (interface : String) (id : ObjectId)
  | objectZombie (interface : String) (id : ObjectId)
  | eventForZombie (interface : String) (id : ObjectId) (name : String)
  | eventForDestroyed (opcode : UInt16) (id : ObjectId)
  | eventForPredecessor (opcode : UInt16) (id : ObjectId)
  | eventWithoutListener (opcode : UInt16) (id : ObjectId)
  | bytesRead (count : Nat)
  | socketFull
  | displayReady
  | queueCreated (queue : QueueId)
  | queueDropped (count : Nat) (queue : QueueId)
  | earlyFlushFailed (cause : ClientError)
  | lastFlushFailed (cause : ClientError)
  | closed (objects queues : Nat)
  | globalAnnounced (name : UInt32) (interface : String) (version : UInt32)
  | globalRemoved (name : UInt32)
  | unknownDeleted (id : ObjectId)
  | eventForUnknown (opcode : UInt16) (id : ObjectId)
  | untypedObject (interface : String) (id : ObjectId) (name : String) (new : ObjectId)
  | eventForMissingQueue (opcode : UInt16) (queue : QueueId)
  | queueStillUsed (count : Nat) (queue : QueueId)
  | alreadyListening (interface : String) (id : ObjectId)
  | noHandler (opcode : UInt16) (interface : String)
  | cannotListen (interface : String) (cause : ClientError)
  | oddEvent (interface name : String) (args : List Argument)
  | fatal (error : FatalError)

namespace Note

def level : Note → Level
  | .request .. | .event .. | .objectCreated .. | .objectZombie .. | .eventForZombie ..
  | .eventForDestroyed .. | .eventForPredecessor .. | .eventWithoutListener .. | .bytesRead ..
  | .socketFull => .trace
  | .displayReady | .queueCreated .. | .queueDropped .. | .earlyFlushFailed ..
  | .lastFlushFailed .. | .closed .. | .globalAnnounced .. | .globalRemoved .. => .debug
  | .unknownDeleted .. | .eventForUnknown .. | .untypedObject .. | .eventForMissingQueue ..
  | .queueStillUsed .. | .alreadyListening .. | .noHandler .. | .cannotListen ..
  | .oddEvent .. => .warn
  | .fatal .. => .error

/-- The wording of each note. -/
def text : Note → String
  | .request interface id name args => s!"-> {interface}@{id}.{name}({Argument.listText args})"
  | .event interface id name args => s!"{interface}@{id}.{name}({Argument.listText args})"
  | .objectCreated interface id => s!"Compositor created {interface}@{id}"
  | .objectZombie interface id => s!"{interface}@{id} is now a zombie"
  | .eventForZombie interface id name =>
    s!"Discarding {interface}@{id}.{name} for a destroyed object"
  | .eventForDestroyed opcode id => s!"Dropping event {opcode} for destroyed object {id}"
  | .eventForPredecessor opcode id => s!"Dropping event {opcode} for a previous object {id}"
  | .eventWithoutListener opcode id => s!"Object {id} has no listener, dropping event {opcode}"
  | .bytesRead count => s!"Read {count} bytes from the compositor"
  | .socketFull => "Socket full, waiting until writable"
  | .displayReady => "Display ready"
  | .queueCreated queue => s!"Created event queue {queue.shown}"
  | .queueDropped count queue => s!"Dropping {count} undispatched events of queue {queue.shown}"
  | .earlyFlushFailed cause => s!"Opportunistic flush failed: {cause.message}"
  | .lastFlushFailed cause => s!"Could not flush before closing: {cause.message}"
  | .closed objects queues =>
    s!"Connection closed, {objects} objects and {queues} queues released"
  | .globalAnnounced name interface version => s!"Global {name}: {interface} v{version}"
  | .globalRemoved name => s!"Global {name} removed"
  | .unknownDeleted id => s!"delete_id for unknown object {id}"
  | .eventForUnknown opcode id => s!"Discarding event {opcode} for unknown object {id}"
  | .untypedObject interface id name new =>
    s!"{interface}@{id}.{name} creates object {new} of unknown interface"
  | .eventForMissingQueue opcode queue =>
    s!"Dropping event {opcode} for missing queue {queue.shown}"
  | .queueStillUsed count queue =>
    s!"{count} objects still used destroyed queue {queue.shown}, moved to the default queue"
  | .alreadyListening interface id => s!"{interface}@{id} already has a listener"
  | .noHandler opcode interface => s!"No handler for event {opcode} of {interface}"
  | .cannotListen interface cause => s!"Could not listen on {interface}: {cause.message}"
  | .oddEvent interface name args =>
    s!"Malformed {interface}.{name}: {Argument.listDetail args}"
  | .fatal error => s!"Fatal connection error: {error.message}"

/-- The line that stands in the log. -/
def line (note : Note) : String := s!"{note.level.name} {note.text}"

end Note

/-! ## Results with notes -/

/-- A result and the notes made while it was computed, in order. -/
structure Logged (α : Type) where
  value : α
  notes : List Note := []

namespace Logged

instance : Monad Logged where
  pure a := { value := a }
  bind x f :=
    let y := f x.value
    { value := y.value, notes := x.notes ++ y.notes }

@[simp] theorem value_pure {α : Type} (a : α) : (pure a : Logged α).value = a := rfl

@[simp] theorem notes_pure {α : Type} (a : α) : (pure a : Logged α).notes = [] := rfl

@[simp] theorem value_bind {α β : Type} (x : Logged α) (f : α → Logged β) :
    (x >>= f).value = (f x.value).value := rfl

@[simp] theorem notes_bind {α β : Type} (x : Logged α) (f : α → Logged β) :
    (x >>= f).notes = x.notes ++ (f x.value).notes := rfl

/-- Makes a note. -/
def note (n : Note) : Logged Unit := { value := (), notes := [n] }

@[simp] theorem notes_note (n : Note) : (note n).notes = [n] := rfl

end Logged

end Wayland.Client
