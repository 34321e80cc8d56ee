import Wayland.IdPool
import Wayland.Message
import Wayland.Protocol.Core

/-! # What can go wrong on a connection

A `FatalError` ends a connection: it is recorded and every later operation reports it.  A
`ClientError` is the answer of a single operation.
-/

namespace Wayland.Client

/-- An error event of the compositor. -/
structure ProtocolError where
  object : ObjectId
  /-- Name of the object's interface, or `unknown`. -/
  interface : String
  code : UInt32
  message : String
  deriving DecidableEq

namespace ProtocolError

def text (e : ProtocolError) : String :=
  s!"{e.interface}@{e.object}: error {e.code}: {e.message}"

/-- What the code means if the display itself reported the error. -/
def displayError? (e : ProtocolError) : Option Protocol.Core.DisplayError :=
  if e.interface = "wl_display" then Protocol.Core.DisplayError.ofCode? e.code else none

end ProtocolError

/-- A failure of the socket that no later attempt can mend. -/
inductive SocketFault
  /-- The compositor closed its end and threw away what it had not read. -/
  | connectionReset
  /-- Any other failure. -/
  | uncategorized
  deriving DecidableEq

def SocketFault.text : SocketFault → String
  | .connectionReset => "connection reset"
  | .uncategorized => "uncategorized error"

/-- Why the number that the compositor gave to a new object is refused. -/
inductive NumberConflict
  /-- The number is in the client's range. -/
  | clientRange (id : ObjectId)
  /-- A live object has the number. -/
  | inUse (id : ObjectId)
  deriving DecidableEq

def NumberConflict.message : NumberConflict → String
  | .clientRange id => s!"The compositor created object {id} in the client id range"
  | .inUse id => s!"Object id {id} is already in use"

/-- Why incoming bytes make no sense. -/
inductive Malformed
  | size (id : ObjectId) (bytes : Nat)
  | noDisplayEvent (opcode : UInt16)
  | displayEvent (name : String) (cause : MessageError)
  | noEvent (interface : String) (id : ObjectId) (opcode : UInt16)
  | event (interface : String) (id : ObjectId) (name : String) (cause : MessageError)
  | newObject (cause : NumberConflict)
  deriving DecidableEq

def Malformed.text : Malformed → String
  | .size id bytes => s!"message for object {id} has invalid size {bytes}"
  | .noDisplayEvent opcode => s!"wl_display has no event {opcode}"
  | .displayEvent name cause => s!"wl_display.{name}: {cause.message}"
  | .noEvent interface id opcode => s!"{interface}@{id} has no event {opcode}"
  | .event interface id name cause => s!"{interface}@{id}.{name}: {cause.message}"
  | .newObject cause => cause.message

/-- Why a connection has ended. -/
inductive FatalError
  | protocol (error : ProtocolError)
  /-- The compositor closed its end. -/
  | disconnected
  | socket (fault : SocketFault)
  | malformed (cause : Malformed)
  deriving DecidableEq

namespace FatalError

/-- The wording of each cause. -/
def message : FatalError → String
  | .protocol error => s!"Protocol error: {error.text}"
  | .disconnected => "The compositor closed the connection"
  | .socket fault => s!"Socket error: {fault.text}"
  | .malformed cause => s!"Malformed message: {cause.text}"

/-- Whether the compositor itself reported the error. -/
def isProtocol : FatalError → Bool
  | .protocol _ => true
  | _ => false

/-- The error on record once `new` arises: the first one stays, except that a report of the
    compositor takes the place of anything else. -/
def record (old : Option FatalError) (new : FatalError) : FatalError :=
  match old with
  | none => new
  | some e => if !e.isProtocol && new.isProtocol then new else e

end FatalError

/-- Why an operation fails. -/
inductive ClientError
  /-- The client itself has closed the connection. -/
  | disconnected
  | fatal (error : FatalError)
  | invalidProxy
  | invalidQueue
  | eventsPending
  | wouldBlock
  | unknownRequest (interface : String) (opcode : UInt16)
  | versionTooLow (interface request : String) (since version : UInt32)
  | listenerMismatch (listener interface : String)
  | wrongInterface (expected found : String)
  | alreadyOwned (id : ObjectId)
  | marshal (cause : MessageError)
  | idsExhausted (cause : IdPool.Exhausted)
  /-- The compositor does not take any more bytes.  What it sent before may still be read. -/
  | brokenPipe
  deriving DecidableEq

/-- The wording of each cause. -/
def ClientError.message : ClientError → String
  | .disconnected => "The connection has been closed"
  | .fatal error => error.message
  | .invalidProxy => "The proxy is not valid"
  | .invalidQueue => "The event queue is not valid for this connection"
  | .eventsPending => "Events are pending in the queue, dispatch them before reading"
  | .wouldBlock => "The socket would block"
  | .unknownRequest interface opcode => s!"{interface} has no request with opcode {opcode}"
  | .versionTooLow interface request since version =>
    s!"{interface}.{request} needs version {since} but the object has version {version}"
  | .listenerMismatch listener interface =>
    s!"Listener for {listener} cannot be attached to {interface}"
  | .wrongInterface expected found => s!"Expected an object of {expected}, found {found}"
  | .alreadyOwned id => s!"Object {id} is already owned by another proxy"
  | .marshal cause => cause.message
  | .idsExhausted cause => cause.message
  | .brokenPipe => "IO operation failed: Broken pipe (os error 32)"

end Wayland.Client
