/-! # Reading bytes as text, whatever they are

Bytes that are UTF-8 are read as such.  Where they are not, every longest run of bytes that starts
a character and cannot be completed becomes one replacement character, and so does every byte that
cannot start one.
-/

namespace Wayland.Text

/-- Stands for bytes that are no text. -/
def replacement : Char := '�'

/-- The beginning of a character. -/
structure Beginning where
  /-- The bits read so far. -/
  bits : Nat
  /-- The next byte has to lie between these. -/
  least : UInt8 := 0x80
  greatest : UInt8 := 0xBF
  /-- How many bytes are to follow the next one. -/
  more : Nat

/-- What a byte begins that stands where a character may start. -/
def begin? (byte : UInt8) : Option Beginning :=
  if 0xC2 ≤ byte && byte ≤ 0xDF then some { bits := byte.toNat - 0xC0, more := 0 }
  else if byte = 0xE0 then some { bits := 0, least := 0xA0, more := 1 }
  else if byte = 0xED then some { bits := 0xD, greatest := 0x9F, more := 1 }
  else if 0xE1 ≤ byte && byte ≤ 0xEF then some { bits := byte.toNat - 0xE0, more := 1 }
  else if byte = 0xF0 then some { bits := 0, least := 0x90, more := 2 }
  else if 0xF1 ≤ byte && byte ≤ 0xF3 then some { bits := byte.toNat - 0xF0, more := 2 }
  else if byte = 0xF4 then some { bits := 4, greatest := 0x8F, more := 2 }
  else none

/-- The characters that a byte completes where a character may start, and what it begins. -/
def readFirst (byte : UInt8) : List Char × Option Beginning :=
  if byte < 0x80 then ([Char.ofNat byte.toNat], none)
  else
    match begin? byte with
    | some beginning => ([], some beginning)
    | none => ([replacement], none)

/-- The characters that a byte completes, and what it leaves begun. -/
def readByte (begun : Option Beginning) (byte : UInt8) : List Char × Option Beginning :=
  match begun with
  | none => readFirst byte
  | some b =>
    if b.least ≤ byte && byte ≤ b.greatest then
      let bits := b.bits * 64 + (byte.toNat - 0x80)
      match b.more with
      | 0 => ([Char.ofNat bits], none)
      | more + 1 => ([], some { bits, more })
    else
      let (chars, begun) := readFirst byte
      (replacement :: chars, begun)

/-- The characters of some bytes behind the beginning of a character. -/
def lossyChars (begun : Option Beginning) : List UInt8 → List Char
  | [] => if begun.isSome then [replacement] else []
  | byte :: bytes =>
    let (chars, begun) := readByte begun byte
    chars ++ lossyChars begun bytes

/-- The text of some bytes. -/
def lossy (bytes : List UInt8) : String := String.ofList (lossyChars none bytes)

/-- A character of three bytes; one that breaks off before its last byte; a byte that starts
    nothing; bytes of a surrogate, none of which continues the one before it. -/
example : lossyChars none [0xE2, 0x82, 0xAC] = ['€']
    ∧ lossyChars none [0xE2, 0x82, 0x41] = [replacement, 'A']
    ∧ lossyChars none [0xC0, 0x41] = [replacement, 'A']
    ∧ lossyChars none [0xED, 0xA0, 0x80] = [replacement, replacement, replacement] := by
  decide

end Wayland.Text
