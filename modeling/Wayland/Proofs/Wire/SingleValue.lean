import Wayland.Proofs.Wire.Lockstep

/-! # Messages with a single value

`encodeMessage` checks that the length of the message fits 16 bits, then it writes the header and
the value one after the other, each where there is room for it.  Nothing asks for room for the
padding of the value.  So a buffer that ends inside this padding is taken, and the answer is the
length of a message of which the last bytes are missing.

* `encodeMessage_fits`: what the buffer holds if header and value fit.
* `encodeMessage_whole`: with room for the padding, that is the whole message.
* `encodeMessage_refused`: otherwise it may hold the header, but no more.
* `encodeMessage_answers`: when there is an answer, and when it is more than the buffer holds.
-/

namespace Wayland.Wire

@[simp] theorem Value.size_header (h : Header) : (Value.header h).size = headerSize := rfl

variable (value : Value) (object : ObjectId) (opcode : UInt16) (buffer : Bytes)

/-- The length of the message that holds a value. -/
def messageLength : Nat := headerSize + padded value.size

/-- The header of the message that holds a value. -/
def messageHeader : Header where
  object := object
  opcode := opcode
  size := UInt16.ofNat (messageLength value)

/-- The message that holds a value, complete with its padding. -/
def wholeMessage : Bytes :=
  (Value.header (messageHeader value object opcode)).encode ++ pad value.encode

/-- Whether the message can be written: its length fits the header, and the header and the value fit
    the buffer. -/
def Writable : Prop :=
  messageLength value < UInt16.size ∧ headerSize + value.size ≤ buffer.length

instance : Decidable (Writable value buffer) := inferInstanceAs (Decidable (_ ∧ _))

@[simp] theorem length_wholeMessage :
    (wholeMessage value object opcode).length = messageLength value := by
  simp [wholeMessage, messageLength]

variable {value buffer}

theorem contentLength_of_writable (writable : Writable value buffer) :
    value.contentLength < UInt32.size := by
  have content := value.contentLength_le_size
  have padding := le_padded value.size
  have short := writable.1
  unfold messageLength headerSize UInt16.size at short
  unfold UInt32.size
  omega

/-! ## Writing -/

/-- The header is written into the first eight bytes and needs no padding. -/
theorem write_header_first (h : Header) (room : headerSize ≤ buffer.length) :
    Encoder.write { buffer } (.header h) =
      .ok { buffer := overwrite buffer 0 (Value.header h).encode, position := headerSize } := by
  have unpadded : padded headerSize = headerSize := by decide
  have covered : (Value.header h).covered (Encoder.room { buffer }) = (Value.header h).encode := by
    rw [Value.covered, pad, Value.length_encode, Value.size_header, unpadded, Nat.sub_self,
      List.replicate_zero, List.append_nil]
    exact List.take_of_length_le (by simpa [Encoder.room] using room)
  rw [Encoder.write_eq_written (by simpa using room) (by simp [Value.contentLength]),
    Encoder.written, covered, Value.size_header, unpadded, Nat.zero_add]

/-- Behind the header stands the value, then its padding as far as the buffer goes, and then what
    was there before. -/
theorem encodeMessage_fits (writable : Writable value buffer) :
    encodeMessage value object opcode buffer = (.ok (messageLength value),
      (Value.header (messageHeader value object opcode)).encode ++ (value.encode ++
        (List.replicate (min (messageLength value) buffer.length - (headerSize + value.size)) 0 ++
          buffer.drop (messageLength value)))) := by
  obtain ⟨short, room⟩ := writable
  have headed : Encoder.write { buffer } (.header (messageHeader value object opcode)) = _ :=
    write_header_first _ (by omega)
  generalize spelled : (Value.header (messageHeader value object opcode)).encode = first at headed ⊢
  have eight : first.length = headerSize := by rw [← spelled]; rfl
  have length : (overwrite buffer 0 first).length = buffer.length := length_overwrite (by omega)
  have body := Encoder.write_eq_written (e := ⟨overwrite buffer 0 first, headerSize⟩) (v := value)
    (by rw [length]; exact room) (contentLength_of_writable ⟨short, room⟩)
  have covers := value.length_covered (buffer.length - headerSize)
  -- The two writes come to one, which is cut off where the buffer ends.
  have both : overwrite (overwrite buffer 0 first) headerSize
      (value.covered (buffer.length - headerSize)) =
      overwrite buffer 0 (first ++ value.covered (buffer.length - headerSize)) := by
    rw [← overwrite_overwrite _ (by omega), Nat.zero_add, eight]
  have rest : buffer.drop (0 + (first ++ value.covered (buffer.length - headerSize)).length) =
      buffer.drop (messageLength value) := by
    rw [List.length_append, eight, covers, messageLength]
    by_cases whole : headerSize + padded value.size ≤ buffer.length
    · rw [Nat.min_eq_left (by omega), Nat.zero_add]
    · rw [List.drop_of_length_le (by omega), List.drop_of_length_le (by omega)]
  have zeros : min (padded value.size) (buffer.length - headerSize) - value.size =
      min (messageLength value) buffer.length - (headerSize + value.size) := by
    unfold messageLength
    omega
  unfold messageHeader messageLength at headed
  unfold messageLength at short
  simp only [encodeMessage, if_neg (Nat.not_le.2 short), headed, body, Encoder.written,
    Encoder.room, length, both]
  rw [overwrite, rest, Value.covered_eq (by omega), zeros, List.take_zero, List.nil_append,
    List.append_assoc, List.append_assoc]
  rfl

/-- With room for the padding, the whole message stands in the buffer. -/
theorem encodeMessage_whole (short : messageLength value < UInt16.size)
    (room : messageLength value ≤ buffer.length) :
    (encodeMessage value object opcode buffer).2 =
      wholeMessage value object opcode ++ buffer.drop (messageLength value) := by
  have padding := le_padded value.size
  have fits : headerSize + value.size ≤ buffer.length := by
    unfold messageLength at room
    omega
  have zeros : messageLength value - (headerSize + value.size) =
      padded value.encode.length - value.encode.length := by
    rw [Value.length_encode, messageLength, Nat.add_sub_add_left]
  rw [encodeMessage_fits object opcode ⟨short, fits⟩, Nat.min_eq_left room, zeros, wholeMessage,
    pad, List.append_assoc, List.append_assoc]

/-- What does not fit is refused.  The header may be written by then, but nothing behind it. -/
theorem encodeMessage_refused (refused : ¬ Writable value buffer) :
    ∃ after, encodeMessage value object opcode buffer = (.error .invalidSize, after) ∧
      after.length = buffer.length ∧ ∀ i, headerSize ≤ i → after[i]? = buffer[i]? := by
  unfold encodeMessage
  by_cases short : UInt16.size ≤ headerSize + padded value.size
  · exact ⟨buffer, by simp [short], rfl, fun _ _ => rfl⟩
  · simp only [if_neg short]
    by_cases start : headerSize ≤ buffer.length
    · generalize ({ object, opcode, size := _ } : Header) = h
      have length : (overwrite buffer 0 (Value.header h).encode).length = buffer.length :=
        length_overwrite (by simpa using start)
      have large : ¬ (headerSize + value.size ≤
          (overwrite buffer 0 (Value.header h).encode).length ∧
            value.contentLength < UInt32.size) := by
        rw [length]
        exact fun fits => refused ⟨Nat.lt_of_not_le short, fits.1⟩
      rw [write_header_first h start]
      dsimp only
      rw [Encoder.write_refused large]
      refine ⟨_, rfl, length, fun i behind => ?_⟩
      refine getElem?_overwrite_outside ?_ (.inr ?_)
      · simpa using start
      · simpa using behind
    · have large (h : Header) : ¬ (0 + (Value.header h).size ≤ buffer.length ∧
          (Value.header h).contentLength < UInt32.size) := by
        intro fits
        exact start (by simpa using fits.1)
      rw [Encoder.write_refused (e := { buffer }) (large _)]
      exact ⟨buffer, rfl, rfl, fun _ _ => rfl⟩

/-! ## Answers -/

variable {object opcode}

theorem encodeMessage_ok_iff {m : Nat} :
    (encodeMessage value object opcode buffer).1 = .ok m ↔
      m = messageLength value ∧ Writable value buffer := by
  by_cases writable : Writable value buffer
  · rw [encodeMessage_fits object opcode writable, Except.ok.injEq]
    exact ⟨fun same => ⟨same.symm, writable⟩, fun fits => fits.1.symm⟩
  · obtain ⟨_, refused, _⟩ := encodeMessage_refused object opcode writable
    simp [refused, writable]

theorem encodeMessage_error {cause : WireError}
    (failed : (encodeMessage value object opcode buffer).1 = .error cause) :
    cause = .invalidSize := by
  by_cases writable : Writable value buffer
  · rw [encodeMessage_fits object opcode writable] at failed
    cases failed
  · obtain ⟨_, refused, _⟩ := encodeMessage_refused object opcode writable
    rw [refused] at failed
    cases failed
    rfl

/-! ## What is in the buffer -/

theorem length_encodeMessage :
    (encodeMessage value object opcode buffer).2.length = buffer.length := by
  by_cases writable : Writable value buffer
  · have room := writable.2
    have padding := le_padded value.size
    rw [encodeMessage_fits object opcode writable]
    simp only [List.length_append, Value.length_encode, Value.size_header, List.length_replicate,
      List.length_drop, messageLength]
    omega
  · obtain ⟨_, refused, length, _⟩ := encodeMessage_refused object opcode writable
    rw [refused, length]

/-- What is behind the message stays. -/
theorem getElem?_encodeMessage_behind {i : Nat} (behind : messageLength value ≤ i) :
    (encodeMessage value object opcode buffer).2[i]? = buffer[i]? := by
  by_cases inside : messageLength value ≤ buffer.length
  · by_cases short : messageLength value < UInt16.size
    · rw [encodeMessage_whole object opcode short inside,
        List.getElem?_append_right (by simpa using behind), List.getElem?_drop,
        length_wholeMessage, Nat.add_sub_cancel' behind]
    · have long : ¬ Writable value buffer := fun writable => short writable.1
      obtain ⟨_, refused, _, stays⟩ := encodeMessage_refused object opcode long
      rw [refused]
      exact stays i (Nat.le_trans (Nat.le_add_right _ _) behind)
  · -- The buffer ends before.
    rw [List.getElem?_eq_none (by rw [length_encodeMessage]; omega),
      List.getElem?_eq_none (by omega)]

theorem decode_header_encodeMessage (writable : Writable value buffer) :
    Shape.header.decode (encodeMessage value object opcode buffer).2 =
      .ok (.header (messageHeader value object opcode)) := by
  rw [encodeMessage_fits object opcode writable]
  exact Value.decode_encode_append (.header _) (by simp [Value.contentLength]) _

theorem decode_value_encodeMessage (writable : Writable value buffer) :
    value.shape.decode ((encodeMessage value object opcode buffer).2.drop headerSize) =
      .ok value := by
  have eight : (Value.header (messageHeader value object opcode)).encode.length = headerSize := rfl
  rw [encodeMessage_fits object opcode writable, List.drop_left' eight]
  exact Value.decode_encode_append value (contentLength_of_writable writable) _

theorem padding_encodeMessage (writable : Writable value buffer) {i : Nat}
    (behind : headerSize + value.size ≤ i) (before : i < messageLength value)
    (inside : i < buffer.length) :
    (encodeMessage value object opcode buffer).2[i]? = some 0 := by
  have eight : (Value.header (messageHeader value object opcode)).encode.length = headerSize := rfl
  rw [encodeMessage_fits object opcode writable, List.getElem?_append_right (by omega),
    List.getElem?_append_right (by rw [Value.length_encode]; omega),
    List.getElem?_append_left (by rw [eight, Value.length_encode, List.length_replicate]; omega),
    List.getElem?_replicate_of_lt]
  rw [eight, Value.length_encode]
  omega

/-- To write a message with a single value, at any buffer.  There is an answer exactly if the length
    of the message, padding included, fits 16 bits and the buffer holds the header and the value,
    without the padding; the answer is then this length.  Anything else is refused.  Bytes from this
    length on never change.

    If there is an answer, the header and the value can be read, and the padding that is inside the
    buffer is zero.  A buffer that is as long as the answer holds the whole message.  But a buffer
    that ends inside the padding is shorter than the answer. -/
theorem encodeMessage_answers (value : Value) (object : ObjectId) (opcode : UInt16)
    (buffer : Bytes) :
    let n := headerSize + padded value.size
    let answer := (encodeMessage value object opcode buffer).1
    let after := (encodeMessage value object opcode buffer).2
    (∀ m, answer = .ok m ↔
      m = n ∧ n < UInt16.size ∧ headerSize + value.size ≤ buffer.length) ∧
    (∀ cause, answer = .error cause → cause = .invalidSize) ∧
    after.length = buffer.length ∧ (∀ i, n ≤ i → after[i]? = buffer[i]?) ∧
    (∀ m, answer = .ok m →
      (∃ header : Header, Shape.header.decode after = .ok (.header header) ∧
        header.object = object ∧ header.opcode = opcode ∧ header.size.toNat = n) ∧
      value.shape.decode (after.drop headerSize) = .ok value ∧
      (∀ i, headerSize + value.size ≤ i → i < n → i < buffer.length → after[i]? = some 0) ∧
      (n ≤ buffer.length → after.take n = wholeMessage value object opcode)) ∧
    ((∃ m, answer = .ok m ∧ buffer.length < m) ↔
      n < UInt16.size ∧ headerSize + value.size ≤ buffer.length ∧ buffer.length < n) := by
  intro n answer after
  have answered {m : Nat} : answer = .ok m ↔ m = n ∧ Writable value buffer := encodeMessage_ok_iff
  refine ⟨fun m => answered, fun cause failed => encodeMessage_error failed, length_encodeMessage,
    fun i behind => getElem?_encodeMessage_behind behind, fun m isAnswer => ?_, ?_⟩
  · have writable := (answered.1 isAnswer).2
    refine ⟨⟨messageHeader value object opcode, decode_header_encodeMessage writable, rfl, rfl, ?_⟩,
      decode_value_encodeMessage writable, fun i behind before inside => ?_, fun inside => ?_⟩
    · exact UInt16.toNat_ofNat_of_lt writable.1
    · exact padding_encodeMessage writable behind before inside
    · have whole : after = wholeMessage value object opcode ++ buffer.drop n :=
        encodeMessage_whole object opcode writable.1 inside
      rw [whole]
      exact List.take_left' (length_wholeMessage ..)
  · constructor
    · rintro ⟨m, isAnswer, larger⟩
      obtain ⟨rfl, short, room⟩ := answered.1 isAnswer
      exact ⟨short, room, larger⟩
    · rintro ⟨short, room, larger⟩
      exact ⟨n, answered.2 ⟨rfl, short, room⟩, larger⟩

/-- The message with `"hi"` takes 16 bytes, the last of which is padding.  Fifteen bytes are enough
    for the answer 16, fourteen are refused. -/
theorem encodeMessage_answers_clipped :
    (∃ m, (encodeMessage (.text "hi") 7 2 (List.replicate 15 255)).1 = .ok m ∧ 15 < m) ∧
      ¬ ∃ m, (encodeMessage (.text "hi") 7 2 (List.replicate 14 255)).1 = .ok m := by
  obtain ⟨-, -, -, -, -, clipped⟩ := encodeMessage_answers (.text "hi") 7 2 (List.replicate 15 255)
  obtain ⟨accepted, -⟩ := encodeMessage_answers (.text "hi") 7 2 (List.replicate 14 255)
  refine ⟨clipped.2 (by decide), ?_⟩
  rintro ⟨m, answered⟩
  exact absurd ((accepted m).1 answered).2 (by decide)

end Wayland.Wire
