/-! # Words on the wire

Everything on the wire is a sequence of 32-bit words, the low byte first.  Values whose length is
not a multiple of four are filled up with zeros to the next word.
-/

namespace Wayland.Wire

/-- Bytes as they travel. -/
abbrev Bytes := List UInt8

/-- The four bytes of a word, the low byte first. -/
def wordBytes (w : UInt32) : Bytes :=
  [w.toUInt8, (w >>> 8).toUInt8, (w >>> 16).toUInt8, (w >>> 24).toUInt8]

/-- The word of four bytes, the low byte first. -/
def wordOfBytes (b₀ b₁ b₂ b₃ : UInt8) : UInt32 :=
  b₀.toUInt32 ||| (b₁.toUInt32 <<< 8) ||| (b₂.toUInt32 <<< 16) ||| (b₃.toUInt32 <<< 24)

/-- Reads a word off the front; there is none in fewer than four bytes. -/
def readWord? : Bytes → Option (UInt32 × Bytes)
  | b₀ :: b₁ :: b₂ :: b₃ :: rest => some (wordOfBytes b₀ b₁ b₂ b₃, rest)
  | _ => none

/-- The least multiple of four that is not below `n`. -/
def padded (n : Nat) : Nat := (n + 3) / 4 * 4

/-- `padded` on 64-bit lengths: there is no answer where the sum with 3 leaves the 64 bits. -/
def padded? (n : UInt64) : Option UInt64 :=
  if n.toNat + 3 < UInt64.size then some (UInt64.ofNat (padded n.toNat)) else none

/-- Bytes followed by the zeros that complete the last word. -/
def pad (bytes : Bytes) : Bytes :=
  bytes ++ List.replicate (padded bytes.length - bytes.length) 0

/-- Length of a message header. -/
def headerSize : Nat := 8

/-- The longest message that may be sent, header included. -/
def maxMessageSize : Nat := 4096

end Wayland.Wire
