import Wayland.Client.Error
import Wayland.Client.Note
import Wayland.Session.Link
import Wayland.Session.Script

/-! # What a session answers

Every step has an answer: what it returned or why it failed, the handlers called while it ran, and
the notes that the client made.  A handler that ran steps of its own lists their answers.
-/

namespace Wayland.Session

open Client (ClientError FatalError Note)

/-- Why a step fails. -/
inductive StepError
  | client (cause : ClientError)
  /-- A name that is not bound, or bound to something else. -/
  | noSuchName (name : String)
  /-- A display or queue cannot go away while it is being dispatched. -/
  | busy
  /-- The step waits for something that never happens. -/
  | stalled
  deriving DecidableEq

def StepError.message : StepError → String
  | .client cause => cause.message
  | .noSuchName name => name
  | .busy | .stalled => ""

/-- What a proxy says about itself. -/
structure ProxyInfo where
  valid : Bool
  id : ObjectId
  interface : Option String
  version : Option UInt32
  connected : Bool
  shown : String

/-- What the compositor received, as counts. -/
structure Summary where
  length : Nat
  /-- Sum of the bytes modulo 2^32. -/
  sum : UInt32
  fds : List Fd
  eof : Bool

/-- What a step returns. -/
inductive Payload
  | null
  | bool (b : Bool)
  | count (n : Nat)
  | text (s : String)
  | proxy (info : ProxyInfo)
  | fatal (error : Option FatalError)
  | connection (closed : Bool) (error : Option FatalError) (same : List String)
  | object (known : Option (String × UInt32))
  | contexts (a b : Option String)
  | queue (valid : Bool) (pending : Nat) (shown : String)
  | received (received : Received) (eof : Bool)
  | summary (summary : Summary)
  | brokenPipe
  | pumped (read dispatched : Nat)
  | results (each : List (Except StepError Nat))
  /-- The result of a call that blocked, and what the compositor's script received. -/
  | served (result : Except StepError Payload) (summary : Summary)

/-- The event that a handler was called for. -/
inductive Cause
  /-- `resolved` has the label of the type A context of each object argument. -/
  | event (handler : Nat) (sender : ObjectId) (opcode : UInt16) (args : List Argument)
      (resolved : List (Option String))
  | global (shown : String)
  | removed (name : UInt32)
  | done (data : UInt32)

/-- A call of a handler; `α` is the type of the answers of its own steps. -/
structure Call (α : Type) where
  label : String
  cause : Cause
  actions : List α

/-- The answer of a step. -/
inductive Answer
  | mk (outcome : Except StepError Payload) (calls : List (Call Answer)) (notes : List Note)

end Wayland.Session
