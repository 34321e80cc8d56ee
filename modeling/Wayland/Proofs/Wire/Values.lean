import Wayland.Proofs.Wire.Words

/-! # Values read back

Main statement: `decode_encode_append`.  A value is read back from its own bytes, and what follows
them does not matter.  The only condition is that the length behind the length word fits 32 bits.
-/

namespace Wayland.Wire

/-! ## Texts -/

@[simp] theorem length_textBytes (s : String) : (textBytes s).length = s.utf8ByteSize := rfl

@[simp] theorem textOfBytes?_textBytes (s : String) : textOfBytes? (textBytes s) = some s := by
  have bytes : (textBytes s).toByteArray = s.toByteArray := by
    apply ByteArray.ext
    simp [textBytes]
  rw [textOfBytes?, bytes, String.fromUTF8?, dif_pos s.isValidUTF8]
  rfl

/-! ## Counted bytes -/

namespace Value

@[simp] theorem length_counted (bytes : Bytes) : (counted bytes).length = 4 + bytes.length := by
  simp [counted]

end Value

/-- Bytes behind a length word are read back if their number fits the word. -/
theorem readCounted_counted {bytes : Bytes} (fits : bytes.length < UInt32.size) (rest : Bytes) :
    readCounted (Value.counted bytes ++ rest) = .ok bytes := by
  have length : (UInt32.ofNat bytes.length).toNat = bytes.length :=
    UInt32.toNat_ofNat_of_lt' fits
  simp only [readCounted, Value.counted, List.append_assoc, readWord_wordBytes]
  simp [bind, Except.bind, length]

/-- A text is read back from its bytes and the zero behind them. -/
theorem readText_counted {s : String} (fits : s.utf8ByteSize + 1 < UInt32.size) (rest : Bytes) :
    readText (Value.counted (textBytes s ++ [0]) ++ rest) = .ok s := by
  have bound : (textBytes s ++ [0]).length < UInt32.size := by simpa using fits
  rw [readText, readCounted_counted bound rest]
  simp [bind, Except.bind]

theorem readHeader_header (h : Header) (rest : Bytes) :
    readHeader ((Value.header h).encode ++ rest) = .ok h := by
  simp only [readHeader, Value.encode, List.append_assoc, readWord_wordBytes, bind, Except.bind,
    opcode_of_word, size_of_word]
  rfl

/-! ## Values -/

namespace Value

@[simp] theorem length_encode (v : Value) : v.encode.length = v.size := by
  cases v with
  | uint _ | int _ | fixed _ | header _ => rfl
  | text s => simp [encode, size, contentLength]
  | optionalText s =>
    cases s with
    | none => rfl
    | some s => simp [encode, size, contentLength]
  | array bytes => simp [encode, size, contentLength]

theorem contentLength_le_size (v : Value) : v.contentLength ≤ v.size := by
  cases v <;> simp [size, contentLength]

theorem decode_encode_append (v : Value) (fits : v.contentLength < UInt32.size) (rest : Bytes) :
    v.shape.decode (v.encode ++ rest) = .ok v := by
  cases v with
  | uint n => simp [shape, Shape.decode, encode, bind, Except.bind, pure, Except.pure]
  | int n => simp [shape, Shape.decode, encode, bind, Except.bind, pure, Except.pure]
  | fixed a => simp [shape, Shape.decode, encode, bind, Except.bind, pure, Except.pure]
  | header h =>
    simp only [shape, Shape.decode, readHeader_header]
    rfl
  | text s =>
    simp only [shape, Shape.decode, encode, readText_counted fits]
    rfl
  | optionalText s =>
    cases s with
    | none => simp [shape, Shape.decode, encode, bind, Except.bind, pure, Except.pure]
    | some s =>
      -- The length word counts the terminator, so it is not the 0 of an absent text.
      have word : UInt32.ofNat (textBytes s ++ [0]).length ≠ 0 := by
        intro zero
        have length := congrArg UInt32.toNat zero
        have bound : (textBytes s ++ [0]).length < UInt32.size := by
          simpa [contentLength] using fits
        rw [UInt32.toNat_ofNat_of_lt' bound] at length
        simp at length
      simp only [shape, Shape.decode, encode, readText_counted fits]
      simp only [counted, List.append_assoc, readWord_wordBytes, bind, Except.bind, word, if_false]
      rfl
  | array bytes =>
    simp only [shape, Shape.decode, encode, readCounted_counted fits]
    rfl

end Value

end Wayland.Wire
