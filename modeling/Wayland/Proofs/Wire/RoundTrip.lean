import Wayland.Client.Outbox
import Wayland.Proofs.Wire.Lockstep

/-! # Messages read back

A message that `marshal` produces is taken apart again by `demarshal`.  Three computations have to
agree on the way: the length that is computed before anything is written, the encoder that pads
every value, and the decoder that pads its position.

* `Encoder.write_zeros` and `Decoder.read_encode`: one step of each cursor.
* `write_eq`: the encoder never fails on a message of the computed length and fills it exactly.
* `readArguments_encode`: the decoder finds every argument where the encoder left it.
* `demarshal_of_marshal`: the round trip.
-/

namespace Wayland

/-! ## Cursors -/

namespace Wire

/-- Writing over zeros leaves the padded value in front of the zeros that remain. -/
theorem Encoder.write_zeros (done : Bytes) (v : Value) {n : Nat} (room : padded v.size ≤ n)
    (fits : v.contentLength < UInt32.size) :
    Encoder.write { buffer := done ++ List.replicate n 0, position := done.length } v =
      .ok { buffer := done ++ pad v.encode ++ List.replicate (n - padded v.size) 0
            position := done.length + padded v.size } := by
  have size := le_padded v.size
  have length : (pad v.encode).length = padded v.size := by simp
  -- The padding is not clipped.
  have covered : v.covered (Encoder.room ⟨done ++ List.replicate n 0, done.length⟩) =
      pad v.encode :=
    List.take_of_length_le (by simpa [Encoder.room] using room)
  rw [Encoder.write_eq_written (by simp; omega) fits, Encoder.written, covered, overwrite, length,
    List.take_left, ← List.drop_drop, List.drop_left, List.drop_replicate]

/-- Reading at a multiple of four finds the value that was written there and moves over its
    padding. -/
theorem Decoder.read_encode (done rest : Bytes) (v : Value) (aligned : done.length % 4 = 0)
    (fits : v.contentLength < UInt32.size) :
    Decoder.read { bytes := done ++ (pad v.encode ++ rest), position := done.length } v.shape =
      .ok (v, { bytes := done ++ (pad v.encode ++ rest)
                position := done.length + padded v.size }) := by
  have decoded : v.shape.decode (pad v.encode ++ rest) = .ok v := by
    rw [pad, List.append_assoc]
    exact Value.decode_encode_append v fits _
  simp only [Decoder.read, Decoder.remaining, List.drop_left, decoded, bind, Except.bind,
    padded_add aligned]
  rfl

end Wire

/-! ## Arguments -/

namespace Argument

/-- The length of the argument, if it has one, fits its word. -/
def Fits (arg : Argument) : Prop := ∀ v, arg.value? = some v → v.contentLength < UInt32.size

/-- An argument as its receiver sees it: the object number 0 is no object. -/
def received : Argument → Argument
  | .object (some id) => .object (if id = 0 then none else some id)
  | arg => arg

@[simp] theorem length_encode (arg : Argument) : arg.encode.length = arg.size := by
  cases h : arg.value? <;> simp [encode, size, h]

theorem size_mod (arg : Argument) : arg.size % 4 = 0 := by
  cases h : arg.value? <;> simp [size, h, Wire.padded_mod]

theorem isNull_received (arg : Argument) : arg.received.isNull = arg.isNull := by
  cases arg with
  | object id =>
    cases id with
    | none => rfl
    | some id => by_cases h : id = 0 <;> simp [received, isNull, h]
  | uint _ | int _ | fixed _ | str _ | newId _ | array _ | fd _ => rfl

/-- The value on the wire has the shape that the argument's kind asks for, and stands for the
    argument. -/
theorem of_value {arg : Argument} {v : Wire.Value} (h : arg.value? = some v) :
    Message.shape? arg.kind = some v.shape ∧ Message.ofValue? arg.kind v = some arg.received := by
  cases arg with
  | object id =>
    cases id with
    | none => cases h; exact ⟨rfl, rfl⟩
    | some id => cases h; exact ⟨rfl, rfl⟩
  | fd _ => cases h
  | uint _ | int _ | fixed _ | str _ | newId _ | array _ => cases h; exact ⟨rfl, rfl⟩

theorem eq_fd_of_value_none {arg : Argument} (h : arg.value? = none) :
    ∃ file, arg = .fd file := by
  cases arg with
  | fd file => exact ⟨file, rfl⟩
  | uint _ | int _ | fixed _ | str _ | object _ | newId _ | array _ => cases h

theorem size_of_value {arg : Argument} {v : Wire.Value} (h : arg.value? = some v) :
    arg.size = Wire.padded v.size := by
  simp [size, h]

theorem fits_of_size {arg : Argument} (small : arg.size < UInt32.size) : arg.Fits := by
  intro v value
  have content := v.contentLength_le_size
  have padded := Wire.le_padded v.size
  rw [size_of_value value] at small
  omega

theorem encode_of_value {arg : Argument} {v : Wire.Value} (h : arg.value? = some v) :
    arg.encode = Wire.pad v.encode := by
  simp [encode, h]

theorem fd?_of_value {arg : Argument} {v : Wire.Value} (h : arg.value? = some v) :
    arg.fd? = none := by
  cases arg with
  | fd _ => cases h
  | uint _ | int _ | fixed _ | str _ | object _ | newId _ | array _ => rfl

end Argument

/-! ## Writing a message -/

namespace Message

theorem sizes_cons (arg : Argument) (args : List Argument) :
    sizes (arg :: args) = arg.size + sizes args :=
  rfl

theorem size_eq (args : List Argument) : size args = 8 + sizes args := rfl

theorem sizes_mod (args : List Argument) : sizes args % 4 = 0 := by
  induction args with
  | nil => rfl
  | cons arg args ih =>
    have first := arg.size_mod
    rw [sizes_cons]
    omega

@[simp] theorem length_flatMap_encode (args : List Argument) :
    (args.flatMap Argument.encode).length = sizes args := by
  induction args with
  | nil => rfl
  | cons arg args ih => simp [sizes_cons, ih]

theorem fits_of_sizes {args : List Argument} (small : sizes args < UInt32.size) :
    ∀ arg ∈ args, arg.Fits := by
  induction args with
  | nil => simp
  | cons arg args ih =>
    rw [sizes_cons] at small
    simp only [List.mem_cons, forall_eq_or_imp]
    exact ⟨Argument.fits_of_size (by omega), ih (by omega)⟩

/-- The encoder gets through the arguments if there is room for them, and leaves their padded
    bytes behind. -/
theorem writeArguments_zeros (args : List Argument) (done : Wire.Bytes) {n : Nat}
    (room : sizes args ≤ n) (fits : ∀ arg ∈ args, arg.Fits) :
    writeArguments { buffer := done ++ List.replicate n 0, position := done.length } args =
      .ok { buffer := done ++ args.flatMap Argument.encode ++ List.replicate (n - sizes args) 0
            position := done.length + sizes args } := by
  induction args generalizing done n with
  | nil => simp [writeArguments, sizes]
  | cons arg args ih =>
    rw [sizes_cons] at room ⊢
    obtain ⟨first, others⟩ := List.forall_mem_cons.1 fits
    cases value : arg.value? with
    | none =>
      -- A descriptor leaves nothing among the bytes.
      have size : arg.size = 0 := by simp [Argument.size, value]
      have encode : arg.encode = [] := by simp [Argument.encode, value]
      simp only [writeArguments, value, List.flatMap_cons, size, encode, Nat.zero_add,
        List.nil_append]
      exact ih done (by omega) others
    | some v =>
      have size := Argument.size_of_value value
      have encode := Argument.encode_of_value value
      have written := Wire.Encoder.write_zeros done v (n := n) (by omega) (first v value)
      simp only [writeArguments, value, written]
      have position : done.length + Wire.padded v.size = (done ++ Wire.pad v.encode).length := by
        simp
      rw [position, ih (done ++ Wire.pad v.encode) (by omega) others, List.flatMap_cons, size,
        encode]
      simp only [List.append_assoc, List.length_append, Wire.length_pad, Wire.Value.length_encode,
        Nat.sub_sub, Nat.add_assoc]

theorem write_header (h : Wire.Header) (n : Nat) :
    Wire.Encoder.write { buffer := List.replicate (8 + n) 0 } (.header h) =
      .ok { buffer := (Wire.Value.header h).encode ++ List.replicate n 0, position := 8 } := by
  have eight : Wire.padded (Wire.Value.header h).size = 8 := by
    simp [Wire.Value.size, Wire.padded]
  have unpadded : Wire.pad (Wire.Value.header h).encode = (Wire.Value.header h).encode := by
    simp [Wire.pad, Wire.Value.size, Wire.padded]
  have written := Wire.Encoder.write_zeros [] (.header h) (n := 8 + n) (by omega)
    (by simp [Wire.Value.contentLength])
  rw [eight, unpadded, Nat.add_sub_cancel_left] at written
  exact written

/-- A message that is not too long is written without fail, and fills the bytes that were set
    aside for it. -/
theorem write_eq (object : ObjectId) (opcode : UInt16) {args : List Argument}
    (small : size args ≤ Wire.maxMessageSize) :
    write object opcode args =
      .ok { buffer := (encode object opcode args).bytes, position := size args } := by
  unfold Wire.maxMessageSize at small
  rw [size_eq] at small
  have fits : ∀ arg ∈ args, arg.Fits := fits_of_sizes (by unfold UInt32.size; omega)
  have headed := write_header ⟨object, opcode, UInt16.ofNat (size args)⟩ (sizes args)
  have filled := writeArguments_zeros args
    (Wire.Value.header ⟨object, opcode, UInt16.ofNat (size args)⟩).encode (Nat.le_refl _) fits
  rw [Nat.sub_self, List.replicate_zero, List.append_nil, Wire.Value.length_encode] at filled
  simp only [write]
  rw [← size_eq] at headed
  rw [headed]
  exact filled

/-! ## Reading it back -/

theorem checkEach_cons {name : String} {index : Nat} {spec : ArgSpec} {specs : List ArgSpec}
    {arg : Argument} {args : List Argument}
    (accepted : checkEach name index (spec :: specs) (arg :: args) = .ok ()) :
    spec.kind = arg.kind ∧ (arg.isNull && !mayBeNull spec) = false ∧
      checkEach name (index + 1) specs args = .ok () := by
  rw [checkEach] at accepted
  split at accepted
  · cases accepted
  next sameKind =>
    split at accepted
    · cases accepted
    next notNull =>
      exact ⟨by simpa using sameKind, by simpa using notNull, accepted⟩

theorem length_filterMap_fd {name : String} {index : Nat} {specs : List ArgSpec}
    {args : List Argument} (sameLength : specs.length = args.length)
    (accepted : checkEach name index specs args = .ok ()) :
    (args.filterMap Argument.fd?).length = (specs.filter (·.kind = .fd)).length := by
  induction specs generalizing index args with
  | nil =>
    obtain rfl := List.eq_nil_of_length_eq_zero sameLength.symm
    rfl
  | cons spec specs ih =>
    obtain _ | ⟨arg, args⟩ := args
    · cases sameLength
    · obtain ⟨kind, _, others⟩ := checkEach_cons accepted
      have rest := ih (by simpa using sameLength) others
      have alike : arg.fd?.isSome = decide (spec.kind = .fd) := by
        rw [kind]
        cases arg <;> rfl
      cases file : arg.fd? with
      | none =>
        have other : ¬ spec.kind = .fd := by simpa [file] using alike
        simp [file, other, rest]
      | some _ =>
        have isFd : spec.kind = .fd := by simpa [file] using alike
        simp [file, isFd, rest]

theorem readArgument_encode (name : String) (arg : Argument) (done rest : Wire.Bytes)
    (queue : List Fd) (aligned : done.length % 4 = 0) (fits : arg.Fits) :
    readArgument name arg.kind
        { bytes := done ++ (arg.encode ++ rest), position := done.length }
        (arg.fd?.toList ++ queue) =
      (.ok (arg.received, { bytes := done ++ (arg.encode ++ rest)
                            position := done.length + arg.size }), queue) := by
  cases value : arg.value? with
  | none =>
    obtain ⟨file, rfl⟩ := Argument.eq_fd_of_value_none value
    rfl
  | some v =>
    obtain ⟨shape, ofValue⟩ := Argument.of_value value
    have size := Argument.size_of_value value
    have encode := Argument.encode_of_value value
    simp only [readArgument, shape, encode, size,
      Wire.Decoder.read_encode done rest v aligned (fits v value), ofValue,
      Argument.fd?_of_value value, Option.toList_none, List.nil_append]

theorem readArguments_encode (name : String) (args : List Argument) (specs : List ArgSpec)
    (index : Nat) (done rest : Wire.Bytes) (queue : List Fd)
    (sameLength : specs.length = args.length)
    (accepted : checkEach name index specs args = .ok ())
    (aligned : done.length % 4 = 0) (fits : ∀ arg ∈ args, arg.Fits) :
    readArguments name index specs
        { bytes := done ++ (args.flatMap Argument.encode ++ rest), position := done.length }
        (args.filterMap Argument.fd? ++ queue) =
      (.ok (args.map Argument.received,
        { bytes := done ++ (args.flatMap Argument.encode ++ rest)
          position := done.length + sizes args }), queue) := by
  -- The induction follows the two lists that `checkEach` compares; `done` has been read already.
  induction args generalizing specs index done with
  | nil =>
    cases specs with
    | nil => simp [readArguments, sizes]
    | cons spec specs => simp at sameLength
  | cons arg args ih =>
    cases specs with
    | nil => simp at sameLength
    | cons spec specs =>
      obtain ⟨sameKind, notNull, accepted⟩ := checkEach_cons accepted
      obtain ⟨fits, fitting⟩ := List.forall_mem_cons.1 fits
      rw [sizes_cons]
      have first := readArgument_encode name arg done (args.flatMap Argument.encode ++ rest)
        (args.filterMap Argument.fd? ++ queue) aligned fits
      have others := ih specs (index + 1) (done ++ arg.encode) (by simpa using sameLength) accepted
        (by have := arg.size_mod; simp; omega) fitting
      have fds : (arg :: args).filterMap Argument.fd? ++ queue =
          arg.fd?.toList ++ (args.filterMap Argument.fd? ++ queue) := by
        cases h : arg.fd? <;> simp [h]
      simp only [List.append_assoc, List.length_append, Argument.length_encode] at others
      simp only [readArguments, List.flatMap_cons, List.append_assoc, fds, sameKind, first,
        Argument.isNull_received, notNull, others, List.map_cons, Nat.add_assoc]
      simp

theorem check_ok {spec : MessageSpec} {args : List Argument} (accepted : check spec args = .ok ()) :
    ∃ sig, signature spec = .ok sig ∧ sig.args.length = args.length ∧
      checkEach spec.name 0 sig.args args = .ok () := by
  cases parsed : signature spec with
  | error cause => simp [check, parsed, bind, Except.bind] at accepted
  | ok sig =>
    simp only [check, parsed, bind, Except.bind] at accepted
    split at accepted
    · cases accepted
    next sameLength => exact ⟨sig, rfl, by simpa using sameLength, accepted⟩

/-- `marshal` succeeds on arguments that fit and are not too long, and its packet is their plain
    encoding. -/
theorem marshal_ok_iff {object : ObjectId} {opcode : UInt16} {spec : MessageSpec}
    {args : List Argument} {packet : Packet} :
    marshal object opcode spec args = .ok packet ↔
      check spec args = .ok () ∧ size args ≤ Wire.maxMessageSize ∧
        packet = encode object opcode args := by
  cases checked : check spec args with
  | error cause => simp [marshal, checked, bind, Except.bind]
  | ok _ =>
    simp only [marshal, checked, bind, Except.bind]
    by_cases long : Wire.maxMessageSize < size args
    · simp [long, Nat.not_le.2 long]
    · have small : size args ≤ Wire.maxMessageSize := by omega
      simp only [long, if_false, write_eq object opcode small, small, Except.ok.injEq, true_and]
      exact eq_comm

theorem encode_drop_header (object : ObjectId) (opcode : UInt16) (args : List Argument) :
    (encode object opcode args).bytes.drop 8 = args.flatMap Argument.encode :=
  List.drop_left' rfl

theorem length_encode_bytes (object : ObjectId) (opcode : UInt16) (args : List Argument) :
    (encode object opcode args).bytes.length = size args := by
  simp only [encode, List.length_append, Wire.Value.length_encode, length_flatMap_encode]
  rfl

theorem demarshal_encode {spec : MessageSpec} {args : List Argument}
    (accepted : check spec args = .ok ()) (small : sizes args < UInt32.size) (queue : List Fd) :
    demarshal spec (args.flatMap Argument.encode) (args.filterMap Argument.fd? ++ queue) =
      (.ok (args.map Argument.received), queue) := by
  obtain ⟨sig, parsed, sameLength, each⟩ := check_ok accepted
  have read := readArguments_encode spec.name args sig.args 0 [] [] queue sameLength each rfl
    (fits_of_sizes small)
  simp only [List.nil_append, List.append_nil, List.length_nil, Nat.zero_add] at read
  have finished : (args.flatMap Argument.encode).drop (sizes args) = [] :=
    List.drop_of_length_le (Nat.le_of_eq (length_flatMap_encode args))
  simp [demarshal, parsed, read, Wire.Decoder.remaining, finished]

/-- A message that was sent is received: `marshal` appends one message of the length it computed,
    whose header says so, and the message's body together with its descriptors is read back as the
    arguments.  The only difference is that the object number 0 comes back as no object. -/
theorem demarshal_of_marshal (object : ObjectId) (opcode : UInt16) (spec : MessageSpec)
    (args : List Argument) (packet : Packet) (out : Client.Outbox) (queue : List Fd)
    (sent : marshal object opcode spec args = .ok packet) :
    ∃ (message : Wire.Bytes) (header : Wire.Header),
      (out.append packet).bytes.toList = out.bytes.toList ++ message ∧
      message.length = size args ∧ 8 ≤ size args ∧ size args ≤ 4096 ∧ size args % 4 = 0 ∧
      Wire.Shape.header.decode message = .ok (.header header) ∧
      header.object = object ∧ header.opcode = opcode ∧ header.size.toNat = size args ∧
      (out.append packet).fds = out.fds ++ args.filterMap Argument.fd? ∧
      demarshal spec (message.drop 8) (args.filterMap Argument.fd? ++ queue) =
        (.ok (args.map Argument.received), queue) := by
  obtain ⟨accepted, small, rfl⟩ := marshal_ok_iff.1 sent
  have aligned := sizes_mod args
  unfold Wire.maxMessageSize at small
  rw [size_eq] at small
  have header := Wire.Value.decode_encode_append
    (.header ⟨object, opcode, UInt16.ofNat (size args)⟩) (by simp [Wire.Value.contentLength])
    (args.flatMap Argument.encode)
  refine ⟨(encode object opcode args).bytes, ⟨object, opcode, UInt16.ofNat (size args)⟩, ?_,
    length_encode_bytes object opcode args, ?_, ?_, ?_, header, rfl, rfl, ?_, rfl, ?_⟩
  · simp [Client.Outbox.append]
  · rw [size_eq]; omega
  · rw [size_eq]; omega
  · rw [size_eq]; omega
  · rw [size_eq]
    exact UInt16.toNat_ofNat_of_lt' (by unfold UInt16.size; omega)
  · rw [encode_drop_header]
    exact demarshal_encode accepted (by unfold UInt32.size; omega) queue

/-- A message with an argument of almost every kind, an absent text, the object number 0 and bytes
    that need padding; a descriptor of a later message waits behind its own. -/
theorem demarshal_of_marshal_everything :
    ∃ message : Wire.Bytes, message.length = 44 ∧
      demarshal ⟨"everything", "2uifs?s?oah", []⟩ (message.drop 8) [⟨5⟩, ⟨9⟩] =
        (.ok [.uint 7, .int (-2), .fixed ⟨384⟩, .str (some "hé"), .str none, .object none,
          .array [1, 2, 3], .fd ⟨5⟩], [⟨9⟩]) := by
  have sent : marshal 3 0 ⟨"everything", "2uifs?s?oah", []⟩
      [.uint 7, .int (-2), .fixed ⟨384⟩, .str (some "hé"), .str none, .object (some 0),
        .array [1, 2, 3], .fd ⟨5⟩] = .ok _ :=
    marshal_ok_iff.2 ⟨rfl, by decide, rfl⟩
  obtain ⟨message, _, _, length, _, _, _, _, _, _, _, _, read⟩ :=
    demarshal_of_marshal _ _ _ _ _ { bytes := #[1, 2], fds := [⟨4⟩] } [⟨9⟩] sent
  exact ⟨message, length, read⟩

end Message

end Wayland
