import Wayland.Proofs.Wire.Values
import Wayland.Wire.Cursor

/-! # Writing and reading in step

An encoder pads the length of each value and a decoder pads its position; where the buffer ends
inside the padding of a value, the encoder leaves out zeros and the decoder just stops.  Still they
stand at the same positions, whatever was in the buffer and whatever could not be written.

* `Encoder.write_ok`: a value is written exactly if it fits; its padded bytes, cut off at the end
  of the buffer, then replace those at the position.
* `Encoder.store_of_ok`, `Encoder.store_of_error`: storing a value piece by piece comes to the same,
  and a value that is refused has not been stored in part.
* `Encoder.storeAll_take`, `Encoder.readAll_storeAll`: what is stored later does not touch what is
  there, so that all of it is read back.
-/

namespace Wayland.Wire

/-! ## Replacing bytes -/

/-- The buffer with some bytes in place of those at a position. -/
def overwrite (buffer : Bytes) (position : Nat) (bytes : Bytes) : Bytes :=
  buffer.take position ++ bytes ++ buffer.drop (position + bytes.length)

variable {buffer bytes : Bytes} {position i : Nat}

theorem length_overwrite (fits : position + bytes.length ≤ buffer.length) :
    (overwrite buffer position bytes).length = buffer.length := by
  simp only [overwrite, List.length_append, List.length_take, List.length_drop]
  omega

theorem getElem?_overwrite_outside (fits : position + bytes.length ≤ buffer.length)
    (outside : i < position ∨ position + bytes.length ≤ i) :
    (overwrite buffer position bytes)[i]? = buffer[i]? := by
  have start : (buffer.take position).length = position := List.length_take_of_le (by omega)
  obtain below | above := outside
  · rw [overwrite, List.append_assoc, List.getElem?_append_left (by omega),
      List.getElem?_take_of_lt below]
  · rw [overwrite, List.getElem?_append_right (by rw [List.length_append]; omega),
      List.getElem?_drop, List.length_append, start]
    congr 1
    omega

theorem drop_overwrite (start : position ≤ buffer.length) :
    (overwrite buffer position bytes).drop position =
      bytes ++ buffer.drop (position + bytes.length) := by
  rw [overwrite, List.append_assoc, List.drop_left' (List.length_take_of_le start)]

theorem take_overwrite (start : position ≤ buffer.length) :
    (overwrite buffer position bytes).take position = buffer.take position := by
  rw [overwrite, List.append_assoc, List.take_left' (List.length_take_of_le start)]

theorem overwrite_nil : overwrite buffer position [] = buffer := by
  simp [overwrite]

/-- Bytes may be stored one part after the other. -/
theorem overwrite_overwrite (more : Bytes)
    (fits : position + bytes.length + more.length ≤ buffer.length) :
    overwrite (overwrite buffer position bytes) (position + bytes.length) more =
      overwrite buffer position (bytes ++ more) := by
  have start : (buffer.take position ++ bytes).length = position + bytes.length := by
    rw [List.length_append, List.length_take_of_le (by omega)]
  have rest : (overwrite buffer position bytes).drop (position + bytes.length) =
      buffer.drop (position + bytes.length) := by
    rw [overwrite, List.drop_left' start]
  rw [overwrite, ← List.drop_drop, rest, overwrite, List.take_left' start, List.drop_drop,
    overwrite, List.length_append, ← Nat.add_assoc, List.append_assoc _ bytes more]

/-! ## One value -/

/-- The bytes that a value takes where there is only some room: those of the padding that do not
    fit are left out. -/
def Value.covered (v : Value) (room : Nat) : Bytes := (pad v.encode).take room

theorem Value.covered_eq {v : Value} {room : Nat} (fits : v.size ≤ room) :
    v.covered room = v.encode ++ List.replicate (min (padded v.size) room - v.size) 0 := by
  have long := le_padded v.size
  rw [covered, pad, v.length_encode, List.take_append, List.take_of_length_le (by simpa using fits),
    List.take_replicate, v.length_encode]
  congr 2
  omega

theorem Value.length_covered (v : Value) (room : Nat) :
    (v.covered room).length = min (padded v.size) room := by
  rw [covered, List.length_take, length_pad, v.length_encode, Nat.min_comm]

namespace Encoder

variable {e e' : Encoder} {v : Value}

/-- What is left of the buffer from the position on. -/
def room (e : Encoder) : Nat := e.buffer.length - e.position

/-- The encoder after a value has been written. -/
def written (e : Encoder) (v : Value) : Encoder :=
  { buffer := overwrite e.buffer e.position (v.covered e.room)
    position := e.position + padded v.size }

@[simp]
theorem position_written (e : Encoder) (v : Value) :
    (e.written v).position = e.position + padded v.size := rfl

theorem write_eq_written (fits : e.position + v.size ≤ e.buffer.length)
    (short : v.contentLength < UInt32.size) : e.write v = .ok (e.written v) := by
  have inside : v.size ≤ e.room := by
    unfold room
    omega
  have into : v.encodeInto (e.buffer.drop e.position) =
      .ok (v.encode ++ e.buffer.drop (e.position + v.size)) := by
    rw [Value.encodeInto, if_neg (by simp; omega), List.drop_drop]
  have length : (v.encode ++ e.buffer.drop (e.position + v.size)).length = e.room := by
    simp only [List.length_append, Value.length_encode, List.length_drop, room]
    omega
  have rest (padding : Nat) : (v.encode ++ e.buffer.drop (e.position + v.size)).drop
      (v.size + padding) = e.buffer.drop (e.position + (v.size + padding)) := by
    rw [← List.drop_drop, List.drop_left' v.length_encode, List.drop_drop, Nat.add_assoc]
  simp only [write, into, length, rest, List.take_left' v.length_encode, bind, Except.bind]
  rw [if_neg (by omega)]
  simp [written, overwrite, Value.covered_eq inside, pure, Except.pure]

theorem write_refused (refused : ¬ (e.position + v.size ≤ e.buffer.length ∧
    v.contentLength < UInt32.size)) : e.write v = .error .invalidSize := by
  unfold write
  split
  · rfl
  · next start =>
    have into : v.encodeInto (e.buffer.drop e.position) = .error .invalidSize := by
      rw [Value.encodeInto, if_pos]
      simp only [List.length_drop, Bool.or_eq_true, decide_eq_true_eq]
      omega
    simp only [into, bind, Except.bind]

theorem write_ok : e.write v = .ok e' ↔
    (e.position + v.size ≤ e.buffer.length ∧ v.contentLength < UInt32.size) ∧
      e' = e.written v := by
  by_cases fits : e.position + v.size ≤ e.buffer.length ∧ v.contentLength < UInt32.size
  · rw [write_eq_written fits.1 fits.2, Except.ok.injEq, eq_comm, and_iff_right fits]
  · simp [write_refused fits, fits]

/-! ## Piece by piece -/

/-- Stores pieces one after the other.  Of a piece that does not fit, as much is stored as there is
    room for; then there is no answer, otherwise it is the position after the last piece. -/
def storePieces (buffer : Bytes) (position : Nat) : List Bytes → Option Nat × Bytes
  | [] => (some position, buffer)
  | piece :: pieces =>
    if buffer.length < position + piece.length then
      (none, overwrite buffer position (piece.take (buffer.length - position)))
    else storePieces (overwrite buffer position piece) (position + piece.length) pieces

end Encoder

/-- The pieces in which a value is stored: words, bytes of a text or an array, terminator. -/
def Value.pieces : Value → List Bytes
  | .header h =>
    [wordBytes h.object, wordBytes ((h.size.toUInt32 <<< 16) ||| h.opcode.toUInt32)]
  | .text s | .optionalText (some s) =>
    [wordBytes (UInt32.ofNat (s.utf8ByteSize + 1)), textBytes s, [0]]
  | .array bytes => [wordBytes (UInt32.ofNat bytes.length), bytes]
  | v => [v.encode]

theorem Value.flatten_pieces (v : Value) : v.pieces.flatten = v.encode := by
  cases v with
  | uint _ | int _ | fixed _ | header _ | array _ => simp [pieces, encode, counted]
  | text s => simp [pieces, encode, counted]
  | optionalText s => cases s <;> simp [pieces, encode, counted]

namespace Encoder

variable {e e' : Encoder} {v : Value}

theorem storePieces_fit (pieces : List Bytes)
    (fits : position + pieces.flatten.length ≤ buffer.length) :
    storePieces buffer position pieces =
      (some (position + pieces.flatten.length), overwrite buffer position pieces.flatten) := by
  induction pieces generalizing buffer position with
  | nil => rw [storePieces, List.flatten_nil, overwrite_nil, List.length_nil, Nat.add_zero]
  | cons piece pieces ih =>
    rw [List.flatten_cons, List.length_append] at fits
    have here : position + piece.length ≤ buffer.length := by omega
    rw [storePieces, if_neg (Nat.not_lt.2 here), ih (by rw [length_overwrite here]; omega),
      overwrite_overwrite _ (by omega), List.flatten_cons, List.length_append, Nat.add_assoc]

/-- Stores a value in place: after the checks its pieces, then the zeros of the padding as far as
    the buffer goes.  There is a cause if it fails on the way, and what was stored before stays. -/
def store (e : Encoder) (v : Value) : Option WireError × Encoder :=
  if e.buffer.length < e.position then (some .invalidSize, e)
  else if e.room < v.size || UInt32.size ≤ v.contentLength then (some .invalidSize, e)
  else
    match storePieces e.buffer e.position v.pieces with
    | (none, buffer) => (some .invalidSize, { e with buffer })
    | (some stop, buffer) =>
      let zeros := List.replicate (min (padded v.size) e.room - v.size) 0
      (none, { buffer := overwrite buffer stop zeros, position := e.position + padded v.size })

theorem store_of_ok (done : e.write v = .ok e') : e.store v = (none, e') := by
  obtain ⟨⟨fits, short⟩, rfl⟩ := write_ok.1 done
  have inside : v.size ≤ e.room := by
    unfold room
    omega
  have length : v.pieces.flatten.length = v.size := by rw [v.flatten_pieces, v.length_encode]
  have whole : e.position + min (padded v.size) e.room ≤ e.buffer.length := by
    unfold room at *
    omega
  rw [store, if_neg (by omega), if_neg (by simp; omega), storePieces_fit _ (by omega), length,
    v.flatten_pieces]
  dsimp only
  rw [← v.length_encode, overwrite_overwrite, v.length_encode, ← Value.covered_eq inside, written]
  simp only [List.length_replicate, v.length_encode]
  omega

theorem store_of_error {cause : WireError} (refused : e.write v = .error cause) :
    e.store v = (some cause, e) := by
  have large : ¬ (e.position + v.size ≤ e.buffer.length ∧ v.contentLength < UInt32.size) := by
    rintro ⟨fits, short⟩
    rw [write_eq_written fits short] at refused
    cases refused
  rw [write_refused large] at refused
  cases refused
  -- The checks come before the first piece, so that a refusal finds nothing stored.
  unfold store
  split
  · rfl
  · next start =>
    have refusal : e.room < v.size ∨ UInt32.size ≤ v.contentLength := by
      unfold room
      omega
    rw [if_pos (by simpa using refusal)]

/-! ## What a write changes -/

theorem written_outside (fits : e.position + v.size ≤ e.buffer.length)
    (outside : i < e.position ∨ (e.written v).position ≤ i) :
    (e.written v).buffer[i]? = e.buffer[i]? := by
  have length : e.position + (v.covered e.room).length ≤ e.buffer.length := by
    rw [Value.length_covered, room]
    omega
  by_cases inside : i < e.buffer.length
  · refine getElem?_overwrite_outside length ?_
    rw [Value.length_covered, room]
    rw [position_written] at outside
    omega
  · -- The padding may reach beyond the end of the buffer, where there is nothing to change.
    rw [List.getElem?_eq_none (by rw [written, length_overwrite length]; omega),
      List.getElem?_eq_none (by omega)]

theorem length_written (fits : e.position + v.size ≤ e.buffer.length) :
    (e.written v).buffer.length = e.buffer.length := by
  refine length_overwrite ?_
  rw [Value.length_covered, room]
  omega

theorem drop_written (fits : e.position + v.size ≤ e.buffer.length) :
    ∃ rest, (e.written v).buffer.drop e.position =
      v.encode ++ (List.replicate (min (padded v.size) e.room - v.size) 0 ++ rest) := by
  rw [written, drop_overwrite (by omega), Value.covered_eq (by unfold room; omega),
    List.append_assoc]
  exact ⟨_, rfl⟩

theorem written_padding (fits : e.position + v.size ≤ e.buffer.length)
    (low : e.position + v.size ≤ i) (high : i < (e.written v).position)
    (inside : i < e.buffer.length) : (e.written v).buffer[i]? = some 0 := by
  obtain ⟨rest, spelled⟩ := drop_written fits
  have moved : (e.written v).buffer[i]? =
      ((e.written v).buffer.drop e.position)[v.size + (i - e.position - v.size)]? := by
    rw [List.getElem?_drop]
    congr 1
    omega
  have within : i - e.position - v.size < min (padded v.size) e.room - v.size := by
    rw [position_written] at high
    unfold room
    omega
  rw [moved, spelled, List.getElem?_append_right (by simp), v.length_encode,
    Nat.add_sub_cancel_left, List.getElem?_append_left (by simpa using within),
    List.getElem?_replicate_of_lt within]

/-! ## Many values -/

/-- Stores values one after the other, going on with whatever a failure leaves.  The answer has
    those that were stored, each with the position after it. -/
def storeAll (e : Encoder) : List Value → List (Value × Nat) × Encoder
  | [] => ([], e)
  | v :: values =>
    match e.store v with
    | (some _, e') => e'.storeAll values
    | (none, e') => ((v, e'.position) :: (e'.storeAll values).1, (e'.storeAll values).2)

end Encoder

/-- Reads values of some shapes one after the other, each with the position after it. -/
def Decoder.readAll (d : Decoder) : List Shape → Except WireError (List (Value × Nat))
  | [] => .ok []
  | shape :: shapes => do
    let (v, d') ← d.read shape
    return (v, d'.position) :: (← d'.readAll shapes)

namespace Encoder

variable {e e' : Encoder} {v : Value}

theorem storeAll_cons (e : Encoder) (v : Value) (values : List Value) :
    (∃ cause, e.write v = .error cause ∧ e.storeAll (v :: values) = e.storeAll values) ∨
    ∃ e', e.write v = .ok e' ∧ e.storeAll (v :: values) =
      ((v, e'.position) :: (e'.storeAll values).1, (e'.storeAll values).2) := by
  cases attempt : e.write v with
  | error cause => exact .inl ⟨cause, rfl, by rw [storeAll, store_of_error attempt]⟩
  | ok e' => exact .inr ⟨e', rfl, by rw [storeAll, store_of_ok attempt]⟩

/-- What stands before the position is not touched any more. -/
theorem storeAll_take (e : Encoder) (values : List Value) :
    (e.storeAll values).2.buffer.take e.position = e.buffer.take e.position := by
  induction values generalizing e with
  | nil => rfl
  | cons v values ih =>
    obtain ⟨cause, _, run⟩ | ⟨e', done, run⟩ := storeAll_cons e v values
    · rw [run, ih]
    · obtain ⟨⟨fits, _⟩, rfl⟩ := write_ok.1 done
      have further : e.position ≤ (e.written v).position := Nat.le_add_right _ _
      have kept := congrArg (List.take e.position) (ih (e.written v))
      rw [List.take_take, List.take_take, Nat.min_eq_left further] at kept
      rw [run, kept, written, take_overwrite (by omega)]

/-- What is written is read, whatever is written later. -/
theorem read_storeAll (aligned : e.position % 4 = 0)
    (fits : e.position + v.size ≤ e.buffer.length) (short : v.contentLength < UInt32.size)
    (values : List Value) :
    let bytes := ((e.written v).storeAll values).2.buffer
    Decoder.read { bytes, position := e.position } v.shape =
      .ok (v, { bytes, position := (e.written v).position }) := by
  intro bytes
  have within : e.position + v.size ≤ (e.written v).position :=
    Nat.add_le_add_left (le_padded v.size) _
  -- Later values are stored from the padded position on, which is past the bytes of this one.
  have start : (bytes.drop e.position).take v.size = v.encode := by
    obtain ⟨rest, spelled⟩ := drop_written fits
    have same := congrArg (List.take (e.position + v.size)) ((e.written v).storeAll_take values)
    rw [List.take_take, List.take_take, Nat.min_eq_left within] at same
    rw [List.take_drop, same, ← List.take_drop, spelled, List.take_left' v.length_encode]
  -- Decoding looks at no more bytes than the value has.
  have decoded : v.shape.decode (bytes.drop e.position) = .ok v := by
    rw [← List.take_append_drop v.size (bytes.drop e.position), start]
    exact v.decode_encode_append short _
  simp only [Decoder.read, Decoder.remaining, decoded, bind, Except.bind, padded_add aligned]
  rfl

theorem readAll_storeAll (e : Encoder) (aligned : e.position % 4 = 0) (values : List Value) :
    Decoder.readAll { bytes := (e.storeAll values).2.buffer, position := e.position }
      ((e.storeAll values).1.map (·.1.shape)) = .ok (e.storeAll values).1 := by
  induction values generalizing e with
  | nil => rfl
  | cons v values ih =>
    obtain ⟨cause, _, run⟩ | ⟨e', done, run⟩ := storeAll_cons e v values
    · rw [run]
      exact ih e aligned
    · obtain ⟨⟨fits, short⟩, rfl⟩ := write_ok.1 done
      -- The decoder rounds up its position, the encoder the size: the same from a multiple of 4.
      have next : (e.written v).position % 4 = 0 := by
        have words := padded_mod v.size
        rw [position_written]
        omega
      simp only [run, List.map_cons, Decoder.readAll, read_storeAll aligned fits short values, bind,
        Except.bind, ih (e.written v) next]
      rfl

end Encoder

/-- A value is written exactly if it fits.  One that is refused leaves position and bytes as they
    were, also if it is stored in place; otherwise no byte changes outside the padded value, as far
    as the buffer goes, and the padding in it becomes zero.  After any writes, refused ones among
    them, to a buffer with anything in it, a decoder reads what was written, and stands where the
    encoder stood after each value. -/
theorem cursors_in_lockstep (buffer : Bytes) (values : List Value) :
    (∀ (e : Encoder) (v : Value),
      ((∃ e', e.write v = .ok e') ↔
        e.position + v.size ≤ e.buffer.length ∧ v.contentLength < UInt32.size) ∧
      (∀ cause, e.write v = .error cause → e.store v = (some cause, e)) ∧
      ∀ e', e.write v = .ok e' →
        e.store v = (none, e') ∧ e'.position = e.position + padded v.size ∧
        e'.buffer.length = e.buffer.length ∧
        (∀ i, i < e.position ∨ e'.position ≤ i → e'.buffer[i]? = e.buffer[i]?) ∧
        ∀ i, e.position + v.size ≤ i → i < e'.position → i < e.buffer.length →
          e'.buffer[i]? = some 0) ∧
    let run := Encoder.storeAll { buffer } values
    Decoder.readAll { bytes := run.2.buffer } (run.1.map (·.1.shape)) = .ok run.1 := by
  refine ⟨fun e v => ⟨?_, fun cause => Encoder.store_of_error, fun e' done => ?_⟩, ?_⟩
  · simp [Encoder.write_ok]
  · obtain ⟨⟨fits, _⟩, rfl⟩ := Encoder.write_ok.1 done
    exact ⟨Encoder.store_of_ok done, rfl, Encoder.length_written fits,
      fun i => Encoder.written_outside fits, fun i => Encoder.written_padding fits⟩
  · exact Encoder.readAll_storeAll { buffer } rfl values

/-- Eleven bytes that hold anything, and three values: the first is too long, the padding of the
    last would need a twelfth byte. -/
theorem cursors_in_lockstep_clipped :
    let buffer : Bytes := List.replicate 11 255
    let run := Encoder.storeAll { buffer } [.array [1, 2, 3, 4, 5, 6, 7, 8], .uint 7, .text "ab"]
    run.1 = [(.uint 7, 4), (.text "ab", 12)] ∧
      Decoder.readAll { bytes := run.2.buffer } [.uint, .text] = .ok run.1 := by
  intro buffer run
  have done : run.1 = [(.uint 7, 4), (.text "ab", 12)] := by decide +kernel
  have read := (cursors_in_lockstep buffer
    [.array [1, 2, 3, 4, 5, 6, 7, 8], .uint 7, .text "ab"]).2
  exact ⟨done, by simpa [run, done, Value.shape] using read⟩

end Wayland.Wire
