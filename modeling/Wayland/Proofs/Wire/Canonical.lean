import Wayland.Proofs.Wire.Values
import Wayland.Wire.Cursor

/-! # Values have one spelling

`Value.decode_encode_append` reads back what was written.  The converse holds, too: bytes that can
be read begin with the encoding of the value that is found there.  So the bytes in front of the
padding leave no choice, and a value can be read in exactly one way (`Shape.decode_ok`): the codes
of a shape are canonical, and none begins another (`codes_canonical`).
-/

namespace Wayland.Wire

theorem of_bind_ok {α β : Type} {x : Except WireError α} {f : α → Except WireError β} {b : β}
    (done : (x >>= f) = .ok b) : ∃ a, x = .ok a ∧ f a = .ok b := by
  cases x with
  | error cause => cases done
  | ok a => exact ⟨a, rfl, done⟩

/-! ## Words -/

theorem wordBytes_wordOfBytes (b₀ b₁ b₂ b₃ : UInt8) :
    wordBytes (wordOfBytes b₀ b₁ b₂ b₃) = [b₀, b₁, b₂, b₃] := by
  have h₀ := b₀.toNat_lt
  have h₁ := b₁.toNat_lt
  have h₂ := b₂.toNat_lt
  have h₃ := b₃.toNat_lt
  have word := toNat_wordOfBytes b₀ b₁ b₂ b₃
  simp only [wordBytes, List.cons.injEq, and_true]
  refine ⟨?_, ?_, ?_, ?_⟩ <;> apply UInt8.toNat_inj.1 <;>
    simp [word, Nat.shiftRight_eq_div_pow] <;> omega

theorem readWord_ok {bytes rest : Bytes} {w : UInt32} :
    readWord bytes = .ok (w, rest) ↔ bytes = wordBytes w ++ rest := by
  refine ⟨fun read => ?_, fun spelled => by rw [spelled, readWord_wordBytes]⟩
  unfold readWord at read
  split at read
  next found =>
    unfold readWord? at found
    split at found
    · cases found
      cases read
      simp [wordBytes_wordOfBytes]
    · cases found
  · cases read

/-- The second word of a header is made of its two halves. -/
theorem word_of_halves (w : UInt32) :
    ((w >>> 16).toUInt16.toUInt32 <<< 16) ||| w.toUInt16.toUInt32 = w := by
  have small := w.toNat_lt
  have low : w.toNat % 65536 < 65536 := Nat.mod_lt _ (by decide)
  have high : (w.toNat / 65536 % 65536) <<< 16 % 4294967296 = (w.toNat / 65536) <<< 16 := by
    simp [Nat.shiftLeft_eq]
    omega
  apply UInt32.toNat_inj.1
  simp [Nat.shiftRight_eq_div_pow]
  rw [high, ← Nat.shiftLeft_add_eq_or_of_lt low]
  simp [Nat.shiftLeft_eq]
  omega

theorem readHeader_ok {bytes : Bytes} {h : Header} :
    readHeader bytes = .ok h ↔ (Value.header h).encode <+: bytes := by
  refine ⟨fun read => ?_, ?_⟩
  · obtain ⟨⟨object, rest⟩, first, read⟩ := of_bind_ok read
    obtain ⟨⟨word, tail⟩, second, read⟩ := of_bind_ok read
    cases read
    rw [readWord_ok.1 first, readWord_ok.1 second]
    simp only [Value.encode, word_of_halves, ← List.append_assoc]
    exact List.prefix_append _ _
  · rintro ⟨rest, rfl⟩
    exact readHeader_header h rest

/-! ## Counted bytes and texts -/

theorem readCounted_ok {bytes content : Bytes} :
    readCounted bytes = .ok content ↔
      content.length < UInt32.size ∧ Value.counted content <+: bytes := by
  refine ⟨fun read => ?_, ?_⟩
  · obtain ⟨⟨length, rest⟩, first, read⟩ := of_bind_ok read
    dsimp only at read
    split at read
    · cases read
    next enough =>
      cases read
      have whole : (rest.take length.toNat).length = length.toNat := by
        rw [List.length_take] at enough ⊢
        omega
      refine ⟨by rw [whole]; exact length.toNat_lt, rest.drop length.toNat, ?_⟩
      rw [readWord_ok.1 first, Value.counted, whole, UInt32.ofNat_toNat, List.append_assoc,
        List.take_append_drop]
  · rintro ⟨fits, rest, rfl⟩
    exact readCounted_counted fits rest

theorem textOfBytes?_some {bytes : Bytes} {s : String} :
    textOfBytes? bytes = some s ↔ textBytes s = bytes := by
  refine ⟨fun found => ?_, ?_⟩
  · unfold textOfBytes? String.fromUTF8? at found
    split at found
    · cases found
      simp [textBytes, String.fromUTF8]
    · cases found
  · rintro rfl
    exact textOfBytes?_textBytes s

theorem readText_ok {bytes : Bytes} {s : String} :
    readText bytes = .ok s ↔
      s.utf8ByteSize + 1 < UInt32.size ∧ Value.counted (textBytes s ++ [0]) <+: bytes := by
  refine ⟨fun read => ?_, ?_⟩
  · obtain ⟨content, counted, read⟩ := of_bind_ok read
    split at read
    · cases read
    next last isLast =>
      split at read
      · cases read
      next zero =>
        split at read
        next text found =>
          -- The content is the text and the zero behind it.
          cases read
          obtain ⟨front, rfl⟩ := List.getLast?_eq_some_iff.1 isLast
          obtain rfl : last = 0 := by simpa using zero
          rw [List.dropLast_concat] at found
          obtain rfl := textOfBytes?_some.1 found
          simpa using readCounted_ok.1 counted
        · cases read
  · rintro ⟨fits, rest, rfl⟩
    exact readText_counted fits rest

/-! ## Values -/

/-- Reading a value off the front of some bytes finds the one whose encoding they begin with. -/
theorem Shape.decode_ok {shape : Shape} {bytes : Bytes} {v : Value} :
    shape.decode bytes = .ok v ↔
      v.shape = shape ∧ v.contentLength < UInt32.size ∧ v.encode <+: bytes := by
  refine ⟨fun read => ?_, ?_⟩
  · have short : 0 < UInt32.size := by decide
    cases shape with
    | uint =>
      obtain ⟨⟨w, rest⟩, first, read⟩ := of_bind_ok read
      cases read
      exact ⟨rfl, short, rest, (readWord_ok.1 first).symm⟩
    | int | fixed =>
      obtain ⟨⟨w, rest⟩, first, read⟩ := of_bind_ok read
      cases read
      refine ⟨rfl, short, rest, ?_⟩
      rw [readWord_ok.1 first]
      simp [Value.encode]
    | header =>
      obtain ⟨h, first, read⟩ := of_bind_ok read
      cases read
      exact ⟨rfl, short, readHeader_ok.1 first⟩
    | text =>
      obtain ⟨s, first, read⟩ := of_bind_ok read
      cases read
      exact ⟨rfl, readText_ok.1 first⟩
    | optionalText =>
      obtain ⟨⟨w, rest⟩, first, read⟩ := of_bind_ok read
      dsimp only at read
      split at read
      next zero =>
        cases read
        refine ⟨rfl, short, rest, ?_⟩
        rw [readWord_ok.1 first, zero]
        rfl
      · obtain ⟨s, found, read⟩ := of_bind_ok read
        cases read
        exact ⟨rfl, readText_ok.1 found⟩
    | array =>
      obtain ⟨content, first, read⟩ := of_bind_ok read
      cases read
      exact ⟨rfl, readCounted_ok.1 first⟩
  · rintro ⟨rfl, fits, rest, rfl⟩
    exact Value.decode_encode_append v fits rest

/-- Bytes begin with at most one value of a shape. -/
theorem Value.eq_of_prefix {bytes : Bytes} {v v' : Value} (same : v.shape = v'.shape)
    (fits : v.contentLength < UInt32.size) (fits' : v'.contentLength < UInt32.size)
    (first : v.encode <+: bytes) (first' : v'.encode <+: bytes) : v = v' := by
  have read := Shape.decode_ok.2 ⟨same, fits, first⟩
  rw [Shape.decode_ok.2 ⟨rfl, fits', first'⟩] at read
  exact (Except.ok.inj read).symm

/-- Reading at a multiple of four, whatever stands in the padding. -/
theorem Decoder.read_ok {done body : Bytes} {shape : Shape} {v : Value} {d : Decoder}
    (aligned : done.length % 4 = 0) :
    Decoder.read { bytes := done ++ body, position := done.length } shape = .ok (v, d) ↔
      v.shape = shape ∧ v.contentLength < UInt32.size ∧ v.encode <+: body ∧
        d = { bytes := done ++ body, position := done.length + padded v.size } := by
  refine ⟨fun read => ?_, ?_⟩
  · obtain ⟨value, decoded, read⟩ := of_bind_ok read
    cases read
    rw [Decoder.remaining, List.drop_left, Shape.decode_ok] at decoded
    obtain ⟨same, fits, first⟩ := decoded
    exact ⟨same, fits, first, by rw [padded_add aligned]⟩
  · rintro ⟨same, fits, first, rfl⟩
    have decoded := Shape.decode_ok.2 ⟨same, fits, first⟩
    simp only [Decoder.read, Decoder.remaining, List.drop_left, decoded, bind, Except.bind,
      padded_add aligned]
    rfl

/-! ## Codes -/

/-- A value fills a buffer of its own size with its code, whatever stood there. -/
theorem Value.encodeInto_fill {v : Value} {buffer : Bytes} (fits : v.contentLength < UInt32.size)
    (exact : buffer.length = v.size) : v.encodeInto buffer = .ok v.encode := by
  have room : ¬ (buffer.length < v.size || UInt32.size ≤ v.contentLength) = true := by
    simp
    omega
  rw [encodeInto, if_neg room, List.drop_of_length_le (Nat.le_of_eq exact), List.append_nil]

/-- The codes of the values of a shape are canonical, and none of them begins another.  Whatever
    bytes are read: the value that is found is not longer than they are, the bytes behind it do not
    matter, and it is written as the very bytes that were read.  Whatever value is written whose
    length fits its word: it is read back from the bytes, with anything behind them. -/
theorem codes_canonical (shape : Shape) (bytes rest : Bytes) (v : Value) :
    (shape.decode bytes = .ok v →
      v.shape = shape ∧ v.size ≤ bytes.length ∧ shape.decode (bytes ++ rest) = .ok v ∧
        ∀ buffer : Bytes, buffer.length = v.size →
          v.encodeInto buffer = .ok (bytes.take v.size)) ∧
    (v.contentLength < UInt32.size → ∀ buffer : Bytes, buffer.length = v.size →
      ∃ code, v.encodeInto buffer = .ok code ∧ code.length = v.size ∧
        v.shape.decode (code ++ rest) = .ok v ∧
        ∀ w code', w.shape = v.shape → w.encodeInto (List.replicate w.size 0) = .ok code' →
          code <+: code' → w = v) := by
  constructor
  · intro read
    obtain ⟨same, fits, first⟩ := Shape.decode_ok.1 read
    have long := first.length_le
    rw [v.length_encode] at long
    refine ⟨same, long, ?_, fun buffer exact => ?_⟩
    · exact Shape.decode_ok.2 ⟨same, fits, first.trans (List.prefix_append bytes rest)⟩
    · rw [Value.encodeInto_fill fits exact, List.prefix_iff_eq_take.1 first, v.length_encode]
  · intro fits buffer exact
    refine ⟨v.encode, Value.encodeInto_fill fits exact, v.length_encode,
      v.decode_encode_append fits rest, fun w code' same written begins => ?_⟩
    have fits' : w.contentLength < UInt32.size := by
      unfold Value.encodeInto at written
      split at written
      · cases written
      next room =>
        simp at room
        exact room
    rw [Value.encodeInto_fill fits' List.length_replicate] at written
    cases written
    exact Value.eq_of_prefix same fits' fits List.prefix_rfl begins

/-- A text with a zero inside is read off the front of the bytes and written as it was read.  No
    text and an empty one are told apart, whatever follows. -/
theorem codes_canonical_texts :
    let found : Bytes := [4, 0, 0, 0, 97, 0, 98, 0, 7]
    Shape.text.decode found = .ok (.text "a\x00b") ∧
    Value.encodeInto (.text "a\x00b") (List.replicate 8 255) = .ok (found.take 8) ∧
    ∃ absent empty : Bytes, absent.length = 4 ∧ empty.length = 5 ∧
      Shape.optionalText.decode (absent ++ found) = .ok (.optionalText none) ∧
      Shape.optionalText.decode (empty ++ found) = .ok (.optionalText (some "")) := by
  intro found
  have read : Shape.text.decode found = .ok (.text "a\x00b") :=
    Shape.decode_ok.2 ⟨rfl, by decide, [7], by decide +kernel⟩
  obtain ⟨_, _, _, written⟩ := (codes_canonical .text found [] _).1 read
  obtain ⟨absent, _, four, noText, _⟩ :=
    (codes_canonical .optionalText [] found (.optionalText none)).2 (by decide)
      (List.replicate 4 255) rfl
  obtain ⟨empty, _, five, emptyText, _⟩ :=
    (codes_canonical .optionalText [] found (.optionalText (some ""))).2 (by decide)
      (List.replicate 5 255) rfl
  exact ⟨read, written _ rfl, absent, empty, four, five, noText, emptyText⟩

end Wayland.Wire
