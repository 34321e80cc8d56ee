import Wayland.Fixed
import Wayland.Wire.Word

/-! # Values on the wire

A `Value` is one of the things that a message is made of, a `Shape` says which.  `Value.encode`
writes a value, `Shape.decode` reads the value of a given shape off the front of some bytes;
what follows the value is ignored.  The length of a text counts the zero byte after it, so the
length 0 is free to stand for "no text".
-/

namespace Wayland

/-- The number of an object. -/
abbrev ObjectId := UInt32

namespace Wire

/-- The first two words of a message: the object, then size and opcode in one word. -/
structure Header where
  object : ObjectId
  opcode : UInt16
  size : UInt16
  deriving DecidableEq, Inhabited

/-- Why bytes cannot be read or written. -/
inductive WireError
  /-- There are fewer bytes than the value takes. -/
  | invalidSize
  /-- A text does not end with a zero byte. -/
  | missingTerminator
  /-- A text is not UTF-8. -/
  | invalidUtf8
  /-- A text is absent where one is needed. -/
  | unexpectedNull
  deriving DecidableEq

/-- The wording of each cause. -/
def WireError.message : WireError → String
  | .invalidSize => "The data provided is not long enough to encode/decode the expected type."
  | .missingTerminator => "String data must end with a NUL terminator"
  | .invalidUtf8 => "String data is not valid UTF-8"
  | .unexpectedNull => "Unexpected null string"

/-- What kind of value is read. -/
inductive Shape
  | uint | int | fixed | header | text | optionalText | array
  deriving DecidableEq

/-- A value that can be written. -/
inductive Value
  | uint (n : UInt32)
  | int (n : Int32)
  | fixed (a : Fixed)
  | header (h : Header)
  | text (s : String)
  | optionalText (s : Option String)
  | array (bytes : Bytes)
  deriving DecidableEq

/-- The bytes of a text. -/
def textBytes (s : String) : Bytes := s.toByteArray.data.toList

/-- The text with these bytes, if they are UTF-8. -/
def textOfBytes? (bytes : Bytes) : Option String := String.fromUTF8? bytes.toByteArray

namespace Value

def shape : Value → Shape
  | .uint _ => .uint
  | .int _ => .int
  | .fixed _ => .fixed
  | .header _ => .header
  | .text _ => .text
  | .optionalText _ => .optionalText
  | .array _ => .array

/-- The length behind a length word, if the value has one: bytes of an array, bytes of a text and
    its terminator. -/
def contentLength : Value → Nat
  | .text s | .optionalText (some s) => s.utf8ByteSize + 1
  | .array bytes => bytes.length
  | _ => 0

/-- The number of bytes that the value takes, without padding. -/
def size : Value → Nat
  | .header _ => 8
  | v => 4 + v.contentLength

/-- A length word, then the bytes. -/
def counted (bytes : Bytes) : Bytes := wordBytes (UInt32.ofNat bytes.length) ++ bytes

/-- The bytes of a value, without padding. -/
def encode : Value → Bytes
  | .uint n => wordBytes n
  | .int n => wordBytes n.toUInt32
  | .fixed a => wordBytes a.raw.toUInt32
  | .header h =>
    wordBytes h.object ++ wordBytes ((h.size.toUInt32 <<< 16) ||| h.opcode.toUInt32)
  | .text s | .optionalText (some s) => counted (textBytes s ++ [0])
  | .optionalText none => wordBytes 0
  | .array bytes => counted bytes

/-- Writes a value over the start of a buffer.  The buffer has to hold all of it, and its length
    has to fit the length word. -/
def encodeInto (v : Value) (buffer : Bytes) : Except WireError Bytes :=
  if buffer.length < v.size || UInt32.size ≤ v.contentLength then .error .invalidSize
  else .ok (v.encode ++ buffer.drop v.size)

end Value

/-- Reads a word off the front. -/
def readWord (bytes : Bytes) : Except WireError (UInt32 × Bytes) :=
  match readWord? bytes with
  | some read => .ok read
  | none => .error .invalidSize

/-- Reads a length word and as many bytes. -/
def readCounted (bytes : Bytes) : Except WireError Bytes := do
  let (length, rest) ← readWord bytes
  let content := rest.take length.toNat
  if content.length < length.toNat then .error .invalidSize
  else .ok content

/-- Reads a text that has to be there. -/
def readText (bytes : Bytes) : Except WireError String := do
  let content ← readCounted bytes
  match content.getLast? with
  | none => .error .unexpectedNull
  | some last =>
    if last ≠ 0 then .error .missingTerminator
    else
      match textOfBytes? content.dropLast with
      | some text => .ok text
      | none => .error .invalidUtf8

/-- Reads a header. -/
def readHeader (bytes : Bytes) : Except WireError Header := do
  let (object, rest) ← readWord bytes
  let (word, _) ← readWord rest
  return { object, opcode := word.toUInt16, size := (word >>> 16).toUInt16 }

/-- Reads the value of a shape off the front of some bytes. -/
def Shape.decode (shape : Shape) (bytes : Bytes) : Except WireError Value :=
  match shape with
  | .uint => do return .uint (← readWord bytes).1
  | .int => do return .int (← readWord bytes).1.toInt32
  | .fixed => do return .fixed ⟨(← readWord bytes).1.toInt32⟩
  | .header => do return .header (← readHeader bytes)
  | .text => do return .text (← readText bytes)
  | .optionalText => do
    let (length, _) ← readWord bytes
    if length = 0 then return .optionalText none
    else return .optionalText (some (← readText bytes))
  | .array => do return .array (← readCounted bytes)

end Wire

end Wayland
