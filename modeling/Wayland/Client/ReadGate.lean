/-! # Who reads

Several threads may want to read from the connection at the same time.  Each declares its
intention first.  When it withdraws the intention by reading, it waits for the others, and only
the last one reads; that ends the round and wakes the others.  Rounds are counted by a serial
number, so a waiting reader sees that its round is over even if the next one has begun.
-/

namespace Wayland.Client

/-- The readers of the current round. -/
structure ReadGate where
  /-- Intentions that were declared and not yet withdrawn. -/
  readers : Nat := 0
  /-- How many rounds are over, modulo 2^64. -/
  serial : UInt64 := 0
  deriving DecidableEq, Inhabited

/-- What a reader that withdraws its intention has to do. -/
inductive Withdrawal
  /-- It was the last one: the round ends now. -/
  | last
  /-- It has to wait for the end of the round with this serial number. -/
  | wait (serial : UInt64)
  /-- It had declared no intention. -/
  | unpaired
  deriving DecidableEq

namespace ReadGate

/-- One more reader. -/
def declare (g : ReadGate) : ReadGate := { g with readers := g.readers + 1 }

/-- One reader less. -/
def withdraw (g : ReadGate) : Withdrawal × ReadGate :=
  match g.readers with
  | 0 => (.unpaired, g)
  | 1 => (.last, { g with readers := 0 })
  | n + 2 => (.wait g.serial, { g with readers := n + 1 })

/-- The round is over. -/
def finishRound (g : ReadGate) : ReadGate := { g with serial := g.serial + 1 }

end ReadGate

end Wayland.Client
