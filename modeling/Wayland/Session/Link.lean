import Wayland.Client.Incoming

/-! # A pair of connected sockets

The client and the compositor of a session are joined by two pipes.  A pipe holds what was
written and not yet read, write by write: descriptors belong to the first byte they were written
with.  The pipe to the compositor has a limited capacity, the other one has not.

`sendOutcomes` and `reads` are what the client's end answers to successive attempts to write and
to read.
-/

namespace Wayland.Session

open Client (Transfer SendOutcome ReadOutcome Inbox Outbox)

/-- Both pipes and whether their ends are open. -/
structure Link where
  /-- From the client to the compositor. -/
  up : List Transfer := []
  /-- From the compositor to the client. -/
  down : List Transfer := []
  clientOpen : Bool := true
  serverOpen : Bool := true
  /-- The compositor closed its end before it had read everything. -/
  lost : Bool := false
  deriving Inhabited

/-- What one end has read. -/
structure Received where
  bytes : Array UInt8 := #[]
  fds : List Fd := []

namespace Received

def append (r s : Received) : Received where
  bytes := r.bytes ++ s.bytes
  fds := r.fds ++ s.fds

end Received

namespace Link

/-- How many unread bytes the pipe to the compositor holds at most. -/
def capacity : Nat := 200000

/-- How many bytes wait in a pipe. -/
def held (pipe : List Transfer) : Nat := Transfer.total pipe

/-! ## The client's end -/

/-- The answers to the client's next attempts to write. -/
def sendOutcomes (l : Link) : List SendOutcome :=
  if !l.serverOpen then [.brokenPipe]
  else
    match capacity - held l.up with
    | 0 => [.wouldBlock]
    | room => [.accepts room, .wouldBlock]

/-- The client has written. -/
def carry (l : Link) (transfers : List Transfer) : Link := { l with up := l.up ++ transfers }

/-- Takes at most `room` bytes off a pipe.  A read does not go beyond a write that carried
    descriptors. -/
def takeRead : Nat → List Transfer → Received × List Transfer
  | _, [] => ({}, [])
  | room, write :: pipe =>
    if room < write.bytes.size then
      ({ bytes := write.bytes.extract 0 room, fds := write.fds },
        { bytes := write.bytes.extract room write.bytes.size, fds := [] } :: pipe)
    else if room = write.bytes.size || !write.fds.isEmpty then
      ({ bytes := write.bytes, fds := write.fds }, pipe)
    else
      let (received, rest) := takeRead (room - write.bytes.size) pipe
      ({ bytes := write.bytes ++ received.bytes, fds := received.fds }, rest)

/-- One attempt of the client to read.  If more descriptors arrive at once than the client asks
    for, the read fails and what it had read is lost. -/
def readOnce (l : Link) : ReadOutcome × Link :=
  if l.down.isEmpty then
    if l.serverOpen then (.wouldBlock, l)
    else if l.lost then (.failed .connectionReset, { l with lost := false })
    else (.hungUp, l)
  else
    let (received, down) := takeRead Inbox.readChunk l.down
    let l := { l with down }
    if Outbox.maxFds < received.fds.length then (.failed .uncategorized, l)
    else (.received received.bytes.toList received.fds, l)

/-- Successive attempts to read, at most `fuel` of them, each with the pipes after it; up to the
    first one that brings nothing, or until a round has read enough.  `total` counts what it has
    read before. -/
def readsUpTo : Nat → Nat → Link → List (ReadOutcome × Link)
  | 0, _, _ => []
  | fuel + 1, total, l =>
    if Inbox.readBudget ≤ total then []
    else
      let (outcome, after) := l.readOnce
      match outcome with
      | .received bytes _ => (outcome, after) :: readsUpTo fuel (total + bytes.length) after
      | _ => [(outcome, after)]

/-- The client's attempts to read in one round: each brings at least one byte, so the budget of a
    round bounds their number. -/
def reads (l : Link) : List (ReadOutcome × Link) := readsUpTo Inbox.readBudget 0 l

/-- The pipes after `used` of the attempts `reads`. -/
def afterReads (l : Link) (reads : List (ReadOutcome × Link)) (used : Nat) : Link :=
  ((reads.take used).getLast?.map Prod.snd).getD l

/-- Whether an attempt of the client to read would bring something, if only the news that the
    compositor is gone. -/
def isReadable (l : Link) : Bool := !l.down.isEmpty || !l.serverOpen || !l.clientOpen

/-- The client closes its end. -/
def closeClient (l : Link) : Link := { l with clientOpen := false }

/-! ## The compositor's end -/

/-- The compositor writes.  There is no answer if the client has closed its end.  Descriptors do
    not travel without bytes. -/
def serverSend? (l : Link) (bytes : Array UInt8) (fds : List Fd) : Option Link :=
  if !l.clientOpen then none
  else if bytes.isEmpty then some l
  else some { l with down := l.down ++ [{ bytes, fds }] }

/-- Takes at most `room` bytes off a pipe, with all their descriptors. -/
def takeUpTo : Nat → List Transfer → Received × List Transfer
  | _, [] => ({}, [])
  | 0, pipe => ({}, pipe)
  | room, write :: pipe =>
    if room < write.bytes.size then
      ({ bytes := write.bytes.extract 0 room, fds := write.fds },
        { bytes := write.bytes.extract room write.bytes.size, fds := [] } :: pipe)
    else
      let (received, rest) := takeUpTo (room - write.bytes.size) pipe
      (Received.append { bytes := write.bytes, fds := write.fds } received, rest)

/-- The compositor reads at most `count` bytes. -/
def serverReceive (l : Link) (count : Nat) : Received × Link :=
  let (received, up) := takeUpTo count l.up
  (received, { l with up })

/-- The compositor reads everything. -/
def serverReceiveAll (l : Link) : Received × Link := l.serverReceive (held l.up)

/-- The compositor closes its end. -/
def closeServer (l : Link) : Link :=
  { l with serverOpen := false, lost := !l.up.isEmpty, up := [] }

end Link

end Wayland.Session
