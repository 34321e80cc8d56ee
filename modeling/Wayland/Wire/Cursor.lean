import Wayland.Wire.Value

/-! # Reading and writing values one after the other

A `Decoder` walks over the bytes of a message, an `Encoder` fills a buffer of fixed length.  Both
stand at a position that is a multiple of four.  The padding of the last value may lie outside the
bytes: the position then points beyond their end, and nothing is read or written there.
-/

namespace Wayland.Wire

/-- Bytes and how far they are read. -/
structure Decoder where
  bytes : Bytes
  position : Nat := 0

namespace Decoder

/-- The bytes still to be read. -/
def remaining (d : Decoder) : Bytes := d.bytes.drop d.position

/-- Reads a value; the position moves over it and its padding, and stays if it cannot be read. -/
def read (d : Decoder) (shape : Shape) : Except WireError (Value × Decoder) := do
  let value ← shape.decode d.remaining
  return (value, { d with position := padded (d.position + value.size) })

end Decoder

/-- A buffer and how far it is written. -/
structure Encoder where
  buffer : Bytes
  position : Nat := 0

namespace Encoder

/-- Writes a value and the zeros after it.  A value that does not fit is not written at all;
    zeros that do not fit are left out, the position counts them all the same. -/
def write (e : Encoder) (value : Value) : Except WireError Encoder :=
  if e.buffer.length < e.position then .error .invalidSize
  else do
    let before := e.buffer.take e.position
    let written ← value.encodeInto (e.buffer.drop e.position)
    let padding := min (padded value.size) written.length - value.size
    let after := written.take value.size ++ List.replicate padding 0
      ++ written.drop (value.size + padding)
    return { buffer := before ++ after, position := e.position + padded value.size }

end Encoder

/-- Writes a message with a single value: a header, then the value.  The answer is the length of
    the message.  If the value does not fit behind the header, the header stays written. -/
def encodeMessage (value : Value) (object : ObjectId) (opcode : UInt16) (buffer : Bytes) :
    Except WireError Nat × Bytes :=
  let size := headerSize + padded value.size
  if UInt16.size ≤ size then (.error .invalidSize, buffer)
  else
    match Encoder.write { buffer } (.header { object, opcode, size := UInt16.ofNat size }) with
    | .error cause => (.error cause, buffer)
    | .ok headed =>
      match headed.write value with
      | .error cause => (.error cause, headed.buffer)
      | .ok done => (.ok done.position, done.buffer)

end Wayland.Wire
