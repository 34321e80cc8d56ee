import Wayland.Client.Error

/-! # Bytes and descriptors that wait to be sent

Requests collect in the outbox.  `flush` offers all its bytes, and with them a limited number of
descriptors, to the socket again and again until no bytes are left or the socket refuses.  What
the socket answers is an input: a list with one outcome per attempt, so that a statement about
`flush` speaks of every behaviour of the socket.
-/

namespace Wayland.Client

/-- What the socket does with an offer. -/
inductive SendOutcome
  /-- It takes the first bytes, at most `room` of them, and all descriptors offered. -/
  | accepts (room : Nat)
  /-- A signal came first; nothing was taken. -/
  | interrupted
  /-- It has no room. -/
  | wouldBlock
  /-- The compositor has closed its end. -/
  | brokenPipe
  | failed (fault : SocketFault)
  deriving DecidableEq

/-- What the socket took in one attempt. -/
structure Transfer where
  bytes : Array UInt8
  fds : List Fd
  deriving DecidableEq, Inhabited

/-- How many bytes the socket took in some attempts. -/
def Transfer.total (transfers : List Transfer) : Nat :=
  transfers.foldr (fun transfer rest => transfer.bytes.size + rest) 0

/-- What waits to be sent. -/
structure Outbox where
  bytes : Array UInt8 := #[]
  fds : List Fd := []
  deriving DecidableEq, Inhabited

/-- Why a flush ended early. -/
inductive FlushStop
  | wouldBlock
  | brokenPipe
  | failed (fault : SocketFault)
  deriving DecidableEq

/-- How a flush went. -/
structure Flushed where
  /-- Why it ended before all bytes were sent. -/
  stop : Option FlushStop
  /-- What the socket took, in order. -/
  transfers : List Transfer
  /-- What is still to be sent. -/
  outbox : Outbox

/-- How many bytes were sent. -/
def Flushed.written (f : Flushed) : Nat := Transfer.total f.transfers

namespace Outbox

/-- How many descriptors one attempt may carry. -/
def maxFds : Nat := 28

/-- The outbox is flushed early when it holds as many bytes as this. -/
def flushThreshold : Nat := 4096

/-- Adds a message. -/
def append (o : Outbox) (packet : Message.Packet) : Outbox where
  bytes := o.bytes ++ packet.bytes
  fds := o.fds ++ packet.fds

/-- What the socket gets if it takes `count` bytes: these, and all descriptors offered with
    them. -/
def transfer (o : Outbox) (count : Nat) : Transfer where
  bytes := o.bytes.extract 0 count
  fds := o.fds.take maxFds

/-- What is left once the socket has taken `count` bytes. -/
def drop (o : Outbox) (count : Nat) : Outbox where
  bytes := o.bytes.extract count o.bytes.size
  fds := o.fds.drop maxFds

/-- Sends until no bytes are left or the socket refuses.  Descriptors without bytes are not sent.
    A socket that has no more answers to give would block. -/
def flush (o : Outbox) : List SendOutcome → Flushed
  | [] =>
    { stop := if o.bytes.isEmpty then none else some .wouldBlock, transfers := [], outbox := o }
  | outcome :: outcomes =>
    if o.bytes.isEmpty then { stop := none, transfers := [], outbox := o }
    else
      match outcome with
      | .accepts room =>
        let rest := (o.drop room).flush outcomes
        { rest with transfers := o.transfer room :: rest.transfers }
      | .interrupted => o.flush outcomes
      | .wouldBlock => { stop := some .wouldBlock, transfers := [], outbox := o }
      | .brokenPipe => { stop := some .brokenPipe, transfers := [], outbox := o }
      | .failed fault => { stop := some (.failed fault), transfers := [], outbox := o }

end Outbox

end Wayland.Client
