import Wayland.Proofs.Wire.Canonical
import Wayland.Proofs.Wire.RoundTrip

/-! # Which bodies are read

A body is read if and only if it is what the encoder writes for some arguments, apart from the
bytes that only fill up the last word of a text or an array: what stands there is not looked at.

`Spells` says this without a decoder, and `demarshal_accepts` relates it to `demarshal`.  The
proof goes through the arguments one by one: `readArgument_ok` is one step, `readArguments_ok` the
induction over the signature.
-/

namespace Wayland

/-! ## Padding -/

namespace Wire

/-- Zeros where the mask says so, the bytes elsewhere. -/
def blank (mask : List Bool) (bytes : Bytes) : Bytes :=
  List.zipWith (fun covered byte => if covered then 0 else byte) mask bytes

theorem blank_append {mask mask' : List Bool} {bytes bytes' : Bytes}
    (same : mask.length = bytes.length) :
    blank (mask ++ mask') (bytes ++ bytes') = blank mask bytes ++ blank mask' bytes' :=
  List.zipWith_append same

theorem blank_false (bytes : Bytes) : blank (List.replicate bytes.length false) bytes = bytes := by
  induction bytes with
  | nil => rfl
  | cons byte bytes ih => simpa [blank, List.replicate_succ] using ih

theorem blank_true (bytes : Bytes) :
    blank (List.replicate bytes.length true) bytes = List.replicate bytes.length 0 := by
  induction bytes with
  | nil => rfl
  | cons byte bytes ih => simpa [blank, List.replicate_succ] using ih

end Wire

namespace Argument

/-- Which of the bytes of an argument are padding. -/
def padding (arg : Argument) : List Bool :=
  match arg.value? with
  | some v =>
    List.replicate v.size false ++ List.replicate (Wire.padded v.size - v.size) true
  | none => []

theorem length_padding (arg : Argument) : arg.padding.length = arg.size := by
  cases value : arg.value? with
  | none => simp [padding, size, value]
  | some v =>
    have := Wire.le_padded v.size
    simp [padding, size, value]
    omega

/-- The bytes say what the argument is, whatever stands in the padding. -/
structure SpelledBy (arg : Argument) (bytes : Wire.Bytes) : Prop where
  fits : arg.Fits
  length : bytes.length = arg.size
  blank : Wire.blank arg.padding bytes = arg.encode

theorem spelledBy_of_value {arg : Argument} {v : Wire.Value} {bytes : Wire.Bytes}
    (value : arg.value? = some v) :
    arg.SpelledBy bytes ↔
      v.contentLength < UInt32.size ∧ bytes.length = Wire.padded v.size ∧ v.encode <+: bytes := by
  have size := size_of_value value
  have room := Wire.le_padded v.size
  -- Split the bytes where the padding starts.
  have blanked (length : bytes.length = Wire.padded v.size) :
      Wire.blank arg.padding bytes = bytes.take v.size ++
        List.replicate (Wire.padded v.size - v.size) 0 := by
    have front : (bytes.take v.size).length = v.size := by simp; omega
    have back : (bytes.drop v.size).length = Wire.padded v.size - v.size := by simp; omega
    have first := Wire.blank_false (bytes.take v.size)
    have second := Wire.blank_true (bytes.drop v.size)
    rw [front] at first
    rw [back] at second
    calc Wire.blank arg.padding bytes
        = Wire.blank (List.replicate v.size false ++
            List.replicate (Wire.padded v.size - v.size) true)
            (bytes.take v.size ++ bytes.drop v.size) := by simp [padding, value]
      _ = _ := by rw [Wire.blank_append (by simp; omega), first, second]
  have encoded : arg.encode = v.encode ++ List.replicate (Wire.padded v.size - v.size) 0 := by
    simp [encode_of_value value, Wire.pad]
  constructor
  · rintro ⟨fits, length, same⟩
    rw [size] at length
    rw [blanked length, encoded] at same
    have front := (List.append_inj' same rfl).1
    exact ⟨fits v value, length, front ▸ List.take_prefix _ _⟩
  · rintro ⟨fits, length, rest, rfl⟩
    refine ⟨?_, length.trans size.symm, ?_⟩
    · intro v' value'
      rw [value] at value'
      cases value'
      exact fits
    · rw [blanked length, encoded, List.take_left' v.length_encode]

theorem spelledBy_fd {file : Fd} {bytes : Wire.Bytes} :
    (Argument.fd file).SpelledBy bytes ↔ bytes = [] := by
  constructor
  · intro spelled
    exact List.eq_nil_of_length_eq_zero spelled.length
  · rintro rfl
    exact ⟨nofun, rfl, rfl⟩

theorem received_eq_self {arg : Argument} : arg.received = arg ↔ arg ≠ .object (some 0) := by
  cases arg with
  | object id =>
    cases id with
    | none => simp [received]
    | some id => by_cases zero : id = 0 <;> simp [received, zero]
  | uint _ | int _ | fixed _ | str _ | newId _ | array _ | fd _ => simp [received]

end Argument

namespace Message

/-! ## What the encoder writes -/

/-- The bytes of arguments, with zeros for their padding. -/
def zeroPadding (args : List Argument) (body : Wire.Bytes) : Wire.Bytes :=
  Wire.blank (args.flatMap Argument.padding) body

/-- The bytes that the encoder writes for arguments.  It fails if a length does not fit its word. -/
def writtenArguments (args : List Argument) : Except Wire.WireError Wire.Bytes :=
  (writeArguments { buffer := List.replicate (sizes args) 0 } args).map (·.buffer)

theorem fits_of_writeArguments {args : List Argument} {e e' : Wire.Encoder}
    (written : writeArguments e args = .ok e') : ∀ arg ∈ args, arg.Fits := by
  induction args generalizing e with
  | nil => simp
  | cons arg args ih =>
    rw [List.forall_mem_cons]
    cases value : arg.value? with
    | none =>
      simp only [writeArguments, value] at written
      exact ⟨fun v present => by simp [value] at present, ih written⟩
    | some v =>
      simp only [writeArguments, value] at written
      split at written
      · cases written
      next first =>
        refine ⟨?_, ih written⟩
        rintro _ present
        rw [value] at present
        cases present
        -- A value whose length does not fit is refused.
        unfold Wire.Encoder.write at first
        split at first
        · cases first
        · obtain ⟨_, into, _⟩ := Wire.of_bind_ok first
          unfold Wire.Value.encodeInto at into
          split at into
          · cases into
          next fits =>
            simp at fits
            omega

theorem writtenArguments_ok {args : List Argument} {bytes : Wire.Bytes} :
    writtenArguments args = .ok bytes ↔
      (∀ arg ∈ args, arg.Fits) ∧ bytes = args.flatMap Argument.encode := by
  have zeros (fits : ∀ arg ∈ args, arg.Fits) :
      writtenArguments args = .ok (args.flatMap Argument.encode) := by
    have written := writeArguments_zeros args [] (Nat.le_refl _) fits
    simp only [List.nil_append, Nat.sub_self, List.replicate_zero, List.append_nil,
      List.length_nil] at written
    rw [writtenArguments, written]
    rfl
  constructor
  · intro written
    cases done : writeArguments { buffer := List.replicate (sizes args) 0 } args with
    | error cause => simp [writtenArguments, done, Except.map] at written
    | ok e =>
      have fits := fits_of_writeArguments done
      rw [zeros fits] at written
      exact ⟨fits, (Except.ok.inj written).symm⟩
  · rintro ⟨fits, rfl⟩
    exact zeros fits

/-- The body is what the encoder writes for the arguments, up to the values of the padding. -/
def Spells (body : Wire.Bytes) (args : List Argument) : Prop :=
  ∃ written, writtenArguments args = .ok written ∧ body.length = written.length ∧
    zeroPadding args body = written

theorem spells_iff {body : Wire.Bytes} {args : List Argument} :
    Spells body args ↔ (∀ arg ∈ args, arg.Fits) ∧ body.length = sizes args ∧
      zeroPadding args body = args.flatMap Argument.encode := by
  simp only [Spells, writtenArguments_ok]
  constructor
  · rintro ⟨_, ⟨fits, rfl⟩, length, same⟩
    exact ⟨fits, length.trans (length_flatMap_encode args), same⟩
  · rintro ⟨fits, length, same⟩
    exact ⟨_, ⟨fits, rfl⟩, length.trans (length_flatMap_encode args).symm, same⟩

theorem spells_nil {body : Wire.Bytes} : Spells body [] ↔ body = [] := by
  rw [spells_iff]
  constructor
  · rintro ⟨_, length, _⟩
    exact List.eq_nil_of_length_eq_zero length
  · rintro rfl
    exact ⟨by simp, rfl, rfl⟩

/-- Each argument has its own part of the body. -/
theorem spells_cons {body : Wire.Bytes} {arg : Argument} {args : List Argument} :
    Spells body (arg :: args) ↔
      ∃ first rest, body = first ++ rest ∧ arg.SpelledBy first ∧ Spells rest args := by
  have parts {first rest : Wire.Bytes} (length : first.length = arg.size) :
      zeroPadding (arg :: args) (first ++ rest) =
        Wire.blank arg.padding first ++ zeroPadding args rest := by
    simp only [zeroPadding, List.flatMap_cons]
    exact Wire.blank_append (by rw [arg.length_padding, length])
  simp only [spells_iff, sizes_cons, List.forall_mem_cons, List.flatMap_cons]
  constructor
  · rintro ⟨⟨fits, others⟩, length, same⟩
    have front : (body.take arg.size).length = arg.size := by simp; omega
    refine ⟨body.take arg.size, body.drop arg.size, (List.take_append_drop _ _).symm, ?_⟩
    rw [← List.take_append_drop arg.size body, parts front] at same
    obtain ⟨first, rest⟩ := List.append_inj same (by
      simp [Wire.blank, arg.length_padding]
      omega)
    exact ⟨⟨fits, front, first⟩, others, by simp; omega, rest⟩
  · rintro ⟨first, rest, rfl, ⟨fits, front, blank⟩, others, length, same⟩
    refine ⟨⟨fits, others⟩, by simp [front, length], ?_⟩
    rw [parts front, blank, same]

/-! ## What the decoder finds -/

theorem ofValue?_some {kind : ArgKind} {v : Wire.Value} {arg : Argument} :
    ofValue? kind v = some arg ↔
      arg.value? = some v ∧ arg.kind = kind ∧ arg.received = arg := by
  constructor
  · intro found
    unfold ofValue? at found
    split at found <;> cases found
    · exact ⟨rfl, rfl, rfl⟩
    · exact ⟨rfl, rfl, rfl⟩
    · exact ⟨rfl, rfl, rfl⟩
    · exact ⟨rfl, rfl, rfl⟩
    next id => by_cases zero : id = 0 <;> simp [zero, Argument.value?, Argument.kind, Argument.received]
    · exact ⟨rfl, rfl, rfl⟩
    · exact ⟨rfl, rfl, rfl⟩
  · rintro ⟨value, rfl, same⟩
    rw [(Argument.of_value value).2, same]

theorem readArgument_ok {n : String} {kind : ArgKind} {done body : Wire.Bytes}
    {fds rest : List Fd} {arg : Argument} {d : Wire.Decoder} (aligned : done.length % 4 = 0)
    (whole : body.length % 4 = 0) :
    readArgument n kind { bytes := done ++ body, position := done.length } fds =
        (.ok (arg, d), rest) ↔
      arg.kind = kind ∧ arg.received = arg ∧ fds = arg.fd?.toList ++ rest ∧
        (∃ first tail, body = first ++ tail ∧ arg.SpelledBy first) ∧
        d = { bytes := done ++ body, position := done.length + arg.size } := by
  constructor
  · intro read
    unfold readArgument at read
    split at read
    next isFd =>
      -- A descriptor takes no bytes.
      obtain rfl : kind = .fd := by cases kind <;> simp [shape?] at isFd ⊢
      split at read
      · cases read
      · cases read
        exact ⟨rfl, rfl, rfl, ⟨[], body, rfl, Argument.spelledBy_fd.2 rfl⟩, rfl⟩
    next shape _ =>
      split at read
      · cases read
      next v _ found =>
        obtain ⟨_, fits, first, rfl⟩ := (Wire.Decoder.read_ok aligned).1 found
        split at read
        next arg' isArg =>
          cases read
          obtain ⟨value, kind, same⟩ := ofValue?_some.1 isArg
          have size := Argument.size_of_value value
          have short := first.length_le
          have room := Wire.le_padded v.size
          -- The body ends with a word, so the padding of the value is there.
          have padded : Wire.padded v.size ≤ body.length := by
            rw [v.length_encode] at short
            unfold Wire.padded
            omega
          refine ⟨kind, same, by simp [Argument.fd?_of_value value],
            ⟨body.take (Wire.padded v.size), body.drop (Wire.padded v.size),
              (List.take_append_drop _ _).symm, ?_⟩, by rw [size]⟩
          refine (Argument.spelledBy_of_value value).2 ⟨fits, by simp; omega, ?_⟩
          exact List.prefix_take_iff.2 ⟨first, by simpa using room⟩
        · cases read
  · rintro ⟨rfl, same, rfl, ⟨first, tail, rfl, spelled⟩, rfl⟩
    cases value : arg.value? with
    | none =>
      obtain ⟨file, rfl⟩ := Argument.eq_fd_of_value_none value
      rfl
    | some v =>
      obtain ⟨shape, ofValue⟩ := Argument.of_value value
      obtain ⟨fits, _, isPrefix⟩ := (Argument.spelledBy_of_value value).1 spelled
      have read := (Wire.Decoder.read_ok aligned).2
        ⟨rfl, fits, isPrefix.trans (List.prefix_append first tail), rfl⟩
      simp only [readArgument, shape, read, ofValue, same, Argument.fd?_of_value value,
        Argument.size_of_value value, Option.toList_none, List.nil_append]

theorem checkEach_cons_iff {name : String} {index : Nat} {spec : ArgSpec} {specs : List ArgSpec}
    {arg : Argument} {args : List Argument} :
    checkEach name index (spec :: specs) (arg :: args) = .ok () ↔
      spec.kind = arg.kind ∧ (arg.isNull && !mayBeNull spec) = false ∧
        checkEach name (index + 1) specs args = .ok () := by
  refine ⟨checkEach_cons, ?_⟩
  rintro ⟨kind, notNull, others⟩
  simp [checkEach, kind, notNull, others]

/-- The induction over the signature: `done` has been read, `body` is yet to be read. -/
theorem readArguments_ok {name : String} {index : Nat} {specs : List ArgSpec}
    {done body : Wire.Bytes} {fds rest : List Fd} {args : List Argument} {d : Wire.Decoder}
    (aligned : done.length % 4 = 0) (whole : body.length % 4 = 0) :
    readArguments name index specs { bytes := done ++ body, position := done.length } fds =
        (.ok (args, d), rest) ↔
      specs.length = args.length ∧ checkEach name index specs args = .ok () ∧
        (∀ arg ∈ args, arg.received = arg) ∧ fds = args.filterMap Argument.fd? ++ rest ∧
        (∃ said tail, body = said ++ tail ∧ Spells said args) ∧
        d = { bytes := done ++ body, position := done.length + sizes args } := by
  induction specs generalizing index done body fds args d with
  | nil =>
    constructor
    · intro read
      cases read
      exact ⟨rfl, rfl, by simp, rfl, ⟨[], body, rfl, spells_nil.2 rfl⟩, rfl⟩
    · rintro ⟨length, _, _, rfl, _, rfl⟩
      obtain rfl := List.eq_nil_of_length_eq_zero length.symm
      rfl
  | cons spec specs ih =>
    constructor
    · intro read
      unfold readArguments at read
      split at read
      · cases read
      next arg _ _ first =>
        obtain ⟨kind, same, rfl, ⟨front, tail, rfl, spelled⟩, rfl⟩ :=
          (readArgument_ok aligned whole).1 first
        split at read
        · cases read
        next notNull =>
          split at read
          · cases read
          next others =>
            cases read
            have size := arg.size_mod
            have length := spelled.length
            rw [← List.append_assoc, ← length, ← List.length_append] at others
            rw [List.length_append] at whole
            obtain ⟨sameLength, accepted, received, rfl, ⟨said, rest, rfl, spells⟩, rfl⟩ :=
              (ih (by rw [List.length_append]; omega) (by omega)).1 others
            refine ⟨by simp [sameLength], ?_, ?_, ?_, ?_, ?_⟩
            · exact checkEach_cons_iff.2 ⟨kind.symm, by simpa using notNull, accepted⟩
            · exact List.forall_mem_cons.2 ⟨same, received⟩
            · cases file : arg.fd? <;> simp [file]
            · exact ⟨front ++ said, rest, by simp, spells_cons.2 ⟨front, said, rfl, spelled, spells⟩⟩
            · simp [sizes_cons, length, Nat.add_assoc]
    · rintro ⟨sameLength, accepted, received, rfl, ⟨said, tail, rfl, spells⟩, rfl⟩
      obtain _ | ⟨arg, args⟩ := args
      · cases sameLength
      · obtain ⟨kind, notNull, accepted⟩ := checkEach_cons accepted
        obtain ⟨same, received⟩ := List.forall_mem_cons.1 received
        obtain ⟨front, said, rfl, spelled, spells⟩ := spells_cons.1 spells
        have size := arg.size_mod
        have length := spelled.length
        have fds : (arg :: args).filterMap Argument.fd? ++ rest =
            arg.fd?.toList ++ (args.filterMap Argument.fd? ++ rest) := by
          cases file : arg.fd? <;> simp [file]
        have first := (readArgument_ok (n := name) aligned whole).2
          ⟨kind.symm, same, fds, ⟨front, said ++ tail, by simp, spelled⟩, rfl⟩
        simp only [List.length_append] at whole
        have aligned : (done ++ front).length % 4 = 0 := by rw [List.length_append]; omega
        have others := (ih aligned (by rw [List.length_append]; omega)).2
          ⟨by simpa using sameLength, accepted, received, rfl, ⟨said, tail, rfl, spells⟩, rfl⟩
        rw [fds] at first
        simp only [List.append_assoc, List.length_append, length] at first others
        simp only [readArguments, List.append_assoc, fds, first, notNull, others, sizes_cons,
          Nat.add_assoc]
        simp

theorem check_ok_iff {spec : MessageSpec} {args : List Argument} :
    check spec args = .ok () ↔ ∃ sig, signature spec = .ok sig ∧
      sig.args.length = args.length ∧ checkEach spec.name 0 sig.args args = .ok () := by
  refine ⟨check_ok, ?_⟩
  rintro ⟨sig, parsed, sameLength, accepted⟩
  simp [check, parsed, sameLength, accepted, bind, Except.bind]

theorem demarshal_ok {spec : MessageSpec} {body : Wire.Bytes} {fds rest : List Fd}
    {args : List Argument} (whole : body.length % 4 = 0) :
    demarshal spec body fds = (.ok args, rest) ↔
      check spec args = .ok () ∧ (∀ arg ∈ args, arg.received = arg) ∧
        fds = args.filterMap Argument.fd? ++ rest ∧ Spells body args := by
  rw [check_ok_iff]
  unfold demarshal
  cases signature spec with
  | error cause => simp
  | ok sig =>
    constructor
    · intro read
      dsimp only at read
      split at read
      · cases read
      next found =>
        obtain ⟨sameLength, accepted, received, rfl, ⟨said, tail, rfl, spells⟩, rfl⟩ :=
          (readArguments_ok (by rfl : ([] : Wire.Bytes).length % 4 = 0) whole).1 found
        split at read
        next finished =>
          cases read
          -- Nothing is left behind the arguments.
          obtain ⟨_, length, _⟩ := spells_iff.1 spells
          obtain rfl : tail = [] := by
            simpa [Wire.Decoder.remaining, ← length] using finished
          rw [List.append_nil]
          exact ⟨⟨sig, rfl, sameLength, accepted⟩, received, rfl, spells⟩
        · cases read
    · rintro ⟨⟨_, isSig, sameLength, accepted⟩, received, rfl, spells⟩
      cases isSig
      obtain ⟨_, length, _⟩ := spells_iff.1 spells
      have read := (readArguments_ok (by rfl : ([] : Wire.Bytes).length % 4 = 0) whole).2
        ⟨sameLength, accepted, received, (rfl : _ = _ ++ rest), ⟨body, [], by simp, spells⟩, rfl⟩
      simp only [List.nil_append, List.length_nil, Nat.zero_add] at read
      simp [read, Wire.Decoder.remaining, ← length]

/-! ## Prefixes -/

theorem Spells.eq_of_prefix {args args' : List Argument} {body body' : Wire.Bytes}
    (spells : Spells body args) (spells' : Spells body' args')
    (kinds : args.map Argument.kind = args'.map Argument.kind) (longer : body <+: body') :
    body = body' := by
  induction args generalizing args' body body' with
  | nil =>
    obtain rfl : args' = [] := by simpa using kinds.symm
    rw [spells_nil.1 spells, spells_nil.1 spells']
  | cons arg args ih =>
    obtain _ | ⟨arg', args'⟩ := args'
    · cases kinds
    · obtain ⟨kind, kinds⟩ := List.cons.inj kinds
      obtain ⟨first, rest, rfl, spelled, spells⟩ := spells_cons.1 spells
      obtain ⟨first', rest', rfl, spelled', spells'⟩ := spells_cons.1 spells'
      -- The two bodies say the same of their first argument, so they go on at the same place.
      have size : arg.size = arg'.size := by
        cases value : arg.value? with
        | none =>
          obtain ⟨file, rfl⟩ := Argument.eq_fd_of_value_none value
          cases arg' <;> cases kind
          rfl
        | some v =>
          cases value' : arg'.value? with
          | none =>
            obtain ⟨file, rfl⟩ := Argument.eq_fd_of_value_none value'
            cases arg <;> cases kind
            cases value
          | some v' =>
            obtain ⟨shape, _⟩ := Argument.of_value value
            obtain ⟨shape', _⟩ := Argument.of_value value'
            have same : v.shape = v'.shape := by
              rw [kind, shape'] at shape
              exact (Option.some.inj shape).symm
            obtain ⟨fits, _, isPrefix⟩ := (Argument.spelledBy_of_value value).1 spelled
            obtain ⟨fits', _, isPrefix'⟩ := (Argument.spelledBy_of_value value').1 spelled'
            obtain rfl := Wire.Value.eq_of_prefix same fits fits'
              (isPrefix.trans ((List.prefix_append first rest).trans longer))
              (isPrefix'.trans (List.prefix_append first' rest'))
            rw [Argument.size_of_value value, Argument.size_of_value value']
      obtain ⟨more, extended⟩ := longer
      rw [List.append_assoc] at extended
      obtain ⟨front, back⟩ := List.append_inj extended
        (by rw [spelled.length, spelled'.length, size])
      rw [front, ih spells spells' kinds ⟨more, back⟩]

theorem kinds_of_checkEach {name : String} {index : Nat} {specs : List ArgSpec}
    {args : List Argument} (sameLength : specs.length = args.length)
    (accepted : checkEach name index specs args = .ok ()) :
    args.map Argument.kind = specs.map (·.kind) := by
  induction specs generalizing index args with
  | nil =>
    obtain rfl := List.eq_nil_of_length_eq_zero sameLength.symm
    rfl
  | cons spec specs ih =>
    obtain _ | ⟨arg, args⟩ := args
    · cases sameLength
    · obtain ⟨kind, _, others⟩ := checkEach_cons accepted
      simp [kind, ih (by simpa using sameLength) others]

theorem kinds_of_check {spec : MessageSpec} {args args' : List Argument}
    (accepted : check spec args = .ok ()) (accepted' : check spec args' = .ok ()) :
    args.map Argument.kind = args'.map Argument.kind := by
  obtain ⟨sig, parsed, sameLength, each⟩ := check_ok accepted
  obtain ⟨_, parsed', sameLength', each'⟩ := check_ok accepted'
  cases parsed.symm.trans parsed'
  rw [kinds_of_checkEach sameLength each, kinds_of_checkEach sameLength' each']

theorem fdCount_of_check {spec : MessageSpec} {sig : Signature} {args : List Argument}
    (parsed : signature spec = .ok sig) (accepted : check spec args = .ok ()) :
    (args.filterMap Argument.fd?).length = sig.fdCount := by
  obtain ⟨_, parsed', sameLength, each⟩ := check_ok accepted
  cases parsed.symm.trans parsed'
  exact length_filterMap_fd sameLength each

/-- Reading accepts exactly the encodings.  The descriptors of the arguments are taken from the
    front of the queue, there is one reading only, writing it again restores the body but for its
    padding, and no other body that is accepted begins with an accepted one. -/
theorem demarshal_accepts (spec : MessageSpec) (body : Wire.Bytes) (fds : List Fd)
    (whole : body.length % 4 = 0) :
    (∀ args rest, demarshal spec body fds = (.ok args, rest) ↔
      ∃ sig, signature spec = .ok sig ∧ sig.fdCount ≤ fds.length ∧ Spells body args ∧
        check spec args = .ok () ∧ .object (some 0) ∉ args ∧
        args.filterMap Argument.fd? = fds.take sig.fdCount ∧ rest = fds.drop sig.fdCount) ∧
    ∀ args rest, demarshal spec body fds = (.ok args, rest) →
      (∀ args', Spells body args' → check spec args' = .ok () → .object (some 0) ∉ args' →
        args'.filterMap Argument.fd? <+: fds → args' = args) ∧
      (∀ object opcode, size args ≤ Wire.maxMessageSize →
        ∃ packet, marshal object opcode spec args = .ok packet ∧
          packet.bytes.drop 8 = zeroPadding args body ∧ packet.fds ++ rest = fds) ∧
      ∀ body' fds' args' rest', body'.length % 4 = 0 → body' <+: body ∨ body <+: body' →
        demarshal spec body' fds' = (.ok args', rest') → body' = body := by
  have noZero {args : List Argument} :
      (∀ arg ∈ args, arg.received = arg) ↔ .object (some 0) ∉ args := by
    simp only [Argument.received_eq_self]
    exact ⟨fun all zero => all _ zero rfl, fun none arg mem same => none (same ▸ mem)⟩
  constructor
  · intro args rest
    rw [demarshal_ok whole, noZero]
    constructor
    · rintro ⟨accepted, noZero, rfl, spells⟩
      obtain ⟨sig, parsed, _⟩ := check_ok accepted
      have count := fdCount_of_check parsed accepted
      refine ⟨sig, parsed, by simp [← count], spells, accepted, noZero, ?_, ?_⟩
      · rw [List.take_left' count]
      · rw [List.drop_left' count]
    · rintro ⟨sig, parsed, enough, spells, accepted, noZero, taken, rfl⟩
      exact ⟨accepted, noZero, by rw [taken, List.take_append_drop], spells⟩
  · intro args rest read
    obtain ⟨accepted, received, rfl, spells⟩ := (demarshal_ok whole).1 read
    refine ⟨?_, ?_, ?_⟩
    · rintro args' spells' accepted' noZero' ⟨rest', taken⟩
      have read' := (demarshal_ok whole).2 ⟨accepted', noZero.2 noZero', taken.symm, spells'⟩
      rw [read] at read'
      cases read'
      rfl
    · intro object opcode small
      refine ⟨encode object opcode args, marshal_ok_iff.2 ⟨accepted, small, rfl⟩, ?_, rfl⟩
      rw [encode_drop_header]
      exact (spells_iff.1 spells).2.2.symm
    · intro body' fds' args' rest' whole' near read'
      obtain ⟨accepted', _, rfl, spells'⟩ := (demarshal_ok whole').1 read'
      have kinds := kinds_of_check accepted accepted'
      obtain shorter | longer := near
      · exact spells'.eq_of_prefix spells kinds.symm shorter
      · exact (spells.eq_of_prefix spells' kinds longer).symm

/-- Non-zero bytes fill up the text and the array of this body.  It is read all the same, and
    neither with its last word missing nor with a word behind it. -/
theorem demarshal_accepts_untidy :
    let spec : MessageSpec := ⟨"tell", "s?oah", []⟩
    let args : List Argument := [.str (some "hi"), .object none, .array [7], .fd ⟨5⟩]
    let body : Wire.Bytes := [3, 0, 0, 0, 104, 105, 0, 255, 0, 0, 0, 0, 1, 0, 0, 0, 7, 1, 2, 3]
    demarshal spec body [⟨5⟩, ⟨9⟩] = (.ok args, [⟨9⟩]) ∧
    (∃ packet, marshal 3 0 spec args = .ok packet ∧ packet.bytes.drop 8 =
      [3, 0, 0, 0, 104, 105, 0, 0, 0, 0, 0, 0, 1, 0, 0, 0, 7, 0, 0, 0]) ∧
    (∀ fds args rest, demarshal spec (body.take 16) fds ≠ (.ok args, rest)) ∧
    ∀ fds args rest, demarshal spec (body ++ [0, 0, 0, 0]) fds ≠ (.ok args, rest) := by
  intro spec args body
  have parsed : signature ⟨"tell", "s?oah", []⟩ = .ok ⟨1, [⟨.str, false⟩, ⟨.object, true⟩,
    ⟨.array, false⟩, ⟨.fd, false⟩]⟩ := rfl
  have accepted : check ⟨"tell", "s?oah", []⟩
    [.str (some "hi"), .object none, .array [7], .fd ⟨5⟩] = .ok () := rfl
  have accepts := demarshal_accepts spec body [⟨5⟩, ⟨9⟩] (by simp [body])
  have spells : Spells body args := spells_iff.2 ⟨fits_of_sizes (by decide), rfl, by decide⟩
  have read : demarshal spec body [⟨5⟩, ⟨9⟩] = (.ok args, [⟨9⟩]) :=
    (accepts.1 _ _).2 ⟨_, parsed, by decide, spells, accepted, by simp [args], rfl, rfl⟩
  obtain ⟨_, again, others⟩ := accepts.2 _ _ read
  obtain ⟨packet, sent, bytes, _⟩ := again 3 0 (by decide)
  have tidy : zeroPadding args body =
      [3, 0, 0, 0, 104, 105, 0, 0, 0, 0, 0, 0, 1, 0, 0, 0, 7, 0, 0, 0] := by decide
  refine ⟨read, ⟨packet, sent, bytes.trans tidy⟩, ?_, ?_⟩
  · intro fds args rest read
    have same := others _ fds args rest (by simp [body]) (.inl (List.take_prefix 16 body)) read
    exact absurd same (by decide)
  · intro fds args rest read
    have same := others _ fds args rest (by simp [body]) (.inr (List.prefix_append body _)) read
    exact absurd same (by decide)

end Message

end Wayland
