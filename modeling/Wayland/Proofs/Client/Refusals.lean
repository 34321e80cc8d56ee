import Wayland.Proofs.Client.Conservation
import Wayland.Proofs.Wire.Acceptance

/-! # Why a request cannot be written

Before a request is written it is compared with its signature: the signature has to make sense,
the number of arguments has to be right, each argument has to be of its kind and not null where
that is not allowed, and the message must not be too long.  `Refuses` states these causes one by
one, `marshal_error_iff` that they are all there is: once they are ruled out, the encoder has room
for every value and does not fail.

The comparison goes through arguments from the first to the last and stops at the first fault
(`checkEach_error_iff`).
-/

namespace Wayland.Message

/-! ## One argument -/

/-- A null where the signature has no room for one.  Texts and objects may be absent behind a
    question mark, and the number 0 is no object; a new object always has a number. -/
def DisallowedNull (expected : ArgSpec) : Argument → Prop
  | .str none | .object none => expected.nullable = false
  | .object (some id) => id = 0 ∧ expected.nullable = false
  | .newId id => id = 0
  | _ => False

/-- An argument that a signature does not ask for. -/
def Unfit (expected : ArgSpec) (arg : Argument) : Prop :=
  expected.kind ≠ arg.kind ∨ DisallowedNull expected arg

/-- What is wrong with an argument.  The kind comes first. -/
inductive FaultAt (name : String) (index : Nat) (expected : ArgSpec) (arg : Argument) :
    MessageError → Prop
  | kind (differs : expected.kind ≠ arg.kind) :
    FaultAt name index expected arg (.argumentMismatch name index expected.kind arg.kind)
  | null (same : expected.kind = arg.kind) (null : DisallowedNull expected arg) :
    FaultAt name index expected arg (.nullArgument name index)

/-- Nothing is wrong with the argument at a place. -/
def FitsAt (specs : List ArgSpec) (args : List Argument) (index : Nat) : Prop :=
  ∀ expected arg, specs[index]? = some expected → args[index]? = some arg → ¬ Unfit expected arg

section

variable {name : String} {start index : Nat} {expected : ArgSpec} {specs : List ArgSpec}
  {arg : Argument} {args : List Argument} {e : MessageError}

theorem null_iff (same : expected.kind = arg.kind) :
    (arg.isNull && !mayBeNull expected) = true ↔ DisallowedNull expected arg := by
  cases arg with
  | str s => cases s <;> simp [Argument.isNull, mayBeNull, same, DisallowedNull, Argument.kind]
  | object id => cases id <;> simp [Argument.isNull, mayBeNull, same, DisallowedNull, Argument.kind]
  | newId id => simp [Argument.isNull, mayBeNull, same, DisallowedNull, Argument.kind]
  | uint _ | int _ | fixed _ | array _ | fd _ => simp [Argument.isNull, DisallowedNull]

theorem exists_fault_iff : (∃ e, FaultAt name index expected arg e) ↔ Unfit expected arg := by
  constructor
  · rintro ⟨_, differs | ⟨_, null⟩⟩
    · exact .inl differs
    · exact .inr null
  · intro unfit
    by_cases same : expected.kind = arg.kind
    · exact ⟨_, .null same (unfit.resolve_left (not_not_intro same))⟩
    · exact ⟨_, .kind same⟩

theorem fitsAt_iff (asked : specs[index]? = some expected) (given : args[index]? = some arg) :
    FitsAt specs args index ↔ ¬ Unfit expected arg := by
  simp [FitsAt, asked, given]

theorem fitsAt_succ :
    FitsAt (expected :: specs) (arg :: args) (index + 1) ↔ FitsAt specs args index :=
  Iff.rfl

/-! ## All arguments -/

/-- The first argument is looked at, and the others only if nothing is wrong with it. -/
theorem checkEach_cons_error_iff :
    checkEach name start (expected :: specs) (arg :: args) = .error e ↔
      FaultAt name start expected arg e ∨
        ¬ Unfit expected arg ∧ checkEach name (start + 1) specs args = .error e := by
  rw [checkEach]
  by_cases same : expected.kind = arg.kind
  · rw [if_neg (not_not_intro same)]
    by_cases null : DisallowedNull expected arg
    · rw [if_pos ((null_iff same).2 null)]
      constructor
      · rintro ⟨⟩
        exact .inl (.null same null)
      · rintro (here | ⟨fit, _⟩)
        · cases here with
          | kind differs => exact absurd same differs
          | null => rfl
        · exact absurd (.inr null) fit
    · rw [if_neg (mt (null_iff same).1 null)]
      have fit : ¬ Unfit expected arg := not_or.2 ⟨not_not_intro same, null⟩
      constructor
      · intro later
        exact .inr ⟨fit, later⟩
      · rintro (here | ⟨_, later⟩)
        · exact absurd (exists_fault_iff.1 ⟨e, here⟩) fit
        · exact later
  · rw [if_pos same]
    constructor
    · rintro ⟨⟩
      exact .inl (.kind same)
    · rintro (here | ⟨fit, _⟩)
      · cases here with
        | kind => rfl
        | null equal => exact absurd equal same
      · exact absurd (.inl same) fit

/-- The fault that is reported is that of the first argument that has one. -/
theorem checkEach_error_iff :
    checkEach name start specs args = .error e ↔
      ∃ index expected arg, (∀ i < index, FitsAt specs args i) ∧
        specs[index]? = some expected ∧ args[index]? = some arg ∧
        FaultAt name (start + index) expected arg e := by
  induction specs generalizing start args with
  | nil => simp [checkEach]
  | cons first specs ih =>
    cases args with
    | nil => simp [checkEach]
    | cons arg args =>
      rw [checkEach_cons_error_iff, ih]
      constructor
      · rintro (here | ⟨fit, index, expected, found, earlier, asked, given, fault⟩)
        · exact ⟨0, first, arg, fun i below => absurd below (Nat.not_lt_zero i), rfl, rfl, here⟩
        · refine ⟨index + 1, expected, found, ?_, asked, given, ?_⟩
          · rintro (_ | i) before
            · exact (fitsAt_iff rfl rfl).2 fit
            · exact fitsAt_succ.2 (earlier i (Nat.lt_of_succ_lt_succ before))
          · rwa [Nat.add_comm index 1, ← Nat.add_assoc]
      · rintro ⟨_ | index, expected, found, earlier, asked, given, fault⟩
        · cases asked
          cases given
          exact .inl fault
        · refine .inr ⟨(fitsAt_iff rfl rfl).1 (earlier 0 (Nat.succ_pos index)), index, expected,
            found, fun i before => earlier (i + 1) (Nat.succ_lt_succ before), asked, given, ?_⟩
          rwa [Nat.add_assoc, Nat.add_comm 1 index]

theorem checkEach_ok_iff :
    checkEach name start specs args = .ok () ↔ ∀ index, FitsAt specs args index := by
  constructor
  · intro accepted index
    -- The least place with a fault would have been reported.
    induction index using Nat.strongRecOn with
    | ind index earlier =>
      intro expected arg asked given unfit
      have ⟨e, fault⟩ : ∃ e, FaultAt name (start + index) expected arg e :=
        exists_fault_iff.2 unfit
      have reported := checkEach_error_iff.2 ⟨index, expected, arg, earlier, asked, given, fault⟩
      rw [accepted] at reported
      cases reported
  · intro fits
    cases checked : checkEach name start specs args with
    | ok _ => rfl
    | error e =>
      obtain ⟨index, expected, arg, _, asked, given, fault⟩ := checkEach_error_iff.1 checked
      exact absurd (exists_fault_iff.1 ⟨e, fault⟩) ((fitsAt_iff asked given).1 (fits index))

end

/-! ## A whole request -/

/-- Why a request with these arguments cannot be written.  The causes exclude each other: each one
    is reported only if those before it do not apply, and of the arguments the first that has a
    fault. -/
inductive Refuses (spec : MessageSpec) (args : List Argument) : MessageError → Prop
  | signature {cause : SignatureError} (malformed : Signature.parse spec.signature = .error cause) :
    Refuses spec args (.signature cause)
  | count {sig : Signature} (parsed : Signature.parse spec.signature = .ok sig)
      (differs : sig.args.length ≠ args.length) :
    Refuses spec args (.argumentCount spec.name sig.args.length args.length)
  | argument {sig : Signature} {index : Nat} {expected : ArgSpec} {arg : Argument}
      {e : MessageError} (parsed : Signature.parse spec.signature = .ok sig)
      (complete : sig.args.length = args.length)
      (earlier : ∀ i < index, FitsAt sig.args args i)
      (asked : sig.args[index]? = some expected) (given : args[index]? = some arg)
      (fault : FaultAt spec.name index expected arg e) : Refuses spec args e
  | tooLarge {sig : Signature} (parsed : Signature.parse spec.signature = .ok sig)
      (complete : sig.args.length = args.length) (fit : ∀ index, FitsAt sig.args args index)
      (long : 4096 < size args) :
    Refuses spec args (.tooLarge (size args))

section

variable {spec : MessageSpec} {args : List Argument} {object : ObjectId} {opcode : UInt16}
  {e : MessageError}

theorem signature_ok {sig : Signature} :
    signature spec = .ok sig ↔ Signature.parse spec.signature = .ok sig := by
  unfold signature
  cases Signature.parse spec.signature with
  | ok found =>
    constructor
    · rintro ⟨⟩
      rfl
    · rintro ⟨⟩
      rfl
  | error cause => exact ⟨nofun, nofun⟩

theorem marshal_of_check_error (refused : check spec args = .error e) :
    marshal object opcode spec args = .error e := by
  simp [marshal, refused, bind, Except.bind]

theorem check_of_signature_error {cause : SignatureError}
    (malformed : Signature.parse spec.signature = .error cause) :
    check spec args = .error (.signature cause) := by
  have failed : signature spec = .error (.signature cause) := by
    unfold signature
    rw [malformed]
    rfl
  simp [check, failed, bind, Except.bind]

theorem check_of_parsed {sig : Signature} (args : List Argument)
    (parsed : Signature.parse spec.signature = .ok sig) :
    check spec args =
      if sig.args.length ≠ args.length then
        .error (.argumentCount spec.name sig.args.length args.length)
      else checkEach spec.name 0 sig.args args := by
  simp [check, signature_ok.2 parsed, bind, Except.bind]

/-- A request that passes its checks fails only if it is too long: the encoder has room for all of
    it. -/
theorem marshal_of_check_ok (accepted : check spec args = .ok ()) :
    marshal object opcode spec args =
      if 4096 < size args then .error (.tooLarge (size args))
      else .ok (encode object opcode args) := by
  split
  next long => simp [marshal, accepted, bind, Except.bind, Wire.maxMessageSize, long]
  next small => exact marshal_ok_iff.2 ⟨accepted, Nat.not_lt.1 small, rfl⟩

theorem refuses_of_marshal (refused : marshal object opcode spec args = .error e) :
    Refuses spec args e := by
  cases parsed : Signature.parse spec.signature with
  | error cause =>
    rw [marshal_of_check_error (check_of_signature_error parsed)] at refused
    cases refused
    exact .signature parsed
  | ok sig =>
    have checked := check_of_parsed args parsed
    split at checked
    next differs =>
      rw [marshal_of_check_error checked] at refused
      cases refused
      exact .count parsed differs
    next complete =>
      have complete := Classical.not_not.1 complete
      cases each : checkEach spec.name 0 sig.args args with
      | error cause =>
        rw [marshal_of_check_error (checked.trans each)] at refused
        cases refused
        obtain ⟨index, expected, arg, earlier, asked, given, fault⟩ := checkEach_error_iff.1 each
        rw [Nat.zero_add] at fault
        exact .argument parsed complete earlier asked given fault
      | ok _ =>
        rw [marshal_of_check_ok (checked.trans each)] at refused
        split at refused
        next long =>
          cases refused
          exact .tooLarge parsed complete (checkEach_ok_iff.1 each) long
        · cases refused

theorem Refuses.marshal (refuses : Refuses spec args e) :
    marshal object opcode spec args = .error e := by
  cases refuses with
  | signature malformed => exact marshal_of_check_error (check_of_signature_error malformed)
  | count parsed differs =>
    apply marshal_of_check_error
    rw [check_of_parsed args parsed, if_pos differs]
  | @argument _ index _ _ _ parsed complete earlier asked given fault =>
    apply marshal_of_check_error
    rw [← Nat.zero_add index] at fault
    rw [check_of_parsed args parsed, if_neg (not_not_intro complete)]
    exact checkEach_error_iff.2 ⟨index, _, _, earlier, asked, given, fault⟩
  | tooLarge parsed complete fit long =>
    have accepted := check_of_parsed args parsed
    rw [if_neg (not_not_intro complete), checkEach_ok_iff.2 fit] at accepted
    rw [marshal_of_check_ok accepted, if_pos long]

theorem marshal_error_iff : marshal object opcode spec args = .error e ↔ Refuses spec args e :=
  ⟨refuses_of_marshal, Refuses.marshal⟩

/-- Which requests are refused at all, whatever is reported of them. -/
theorem exists_refuses_iff : (∃ e, Refuses spec args e) ↔
    (∃ cause, Signature.parse spec.signature = .error cause) ∨
    ∃ sig, Signature.parse spec.signature = .ok sig ∧
      (sig.args.length ≠ args.length ∨
        (∃ (index : Nat) (expected : ArgSpec) (arg : Argument),
          sig.args[index]? = some expected ∧ args[index]? = some arg ∧ Unfit expected arg) ∨
        4096 < size args) := by
  constructor
  · rintro ⟨e, refuses⟩
    cases refuses with
    | signature malformed => exact .inl ⟨_, malformed⟩
    | count parsed differs => exact .inr ⟨_, parsed, .inl differs⟩
    | argument parsed _ _ asked given fault =>
      exact .inr ⟨_, parsed, .inr (.inl ⟨_, _, _, asked, given, exists_fault_iff.1 ⟨_, fault⟩⟩)⟩
    | tooLarge parsed _ _ long => exact .inr ⟨_, parsed, .inr (.inr long)⟩
  · rintro (⟨cause, malformed⟩ | ⟨sig, parsed, faulty⟩)
    · exact ⟨_, .signature malformed⟩
    · -- A request that is written has none of these faults.
      cases written : marshal 0 0 spec args with
      | error e => exact ⟨e, refuses_of_marshal written⟩
      | ok packet =>
        obtain ⟨accepted, small, _⟩ := marshal_ok_iff.1 written
        obtain ⟨found, same, complete, each⟩ := check_ok accepted
        obtain rfl : sig = found := Except.ok.inj (parsed.symm.trans (signature_ok.1 same))
        rcases faulty with differs | ⟨index, expected, arg, asked, given, unfit⟩ | long
        · exact absurd complete differs
        · exact absurd unfit (checkEach_ok_iff.1 each index expected arg asked given)
        · exact absurd long (Nat.not_lt.2 small)

theorem Refuses.no_wire {cause : Wire.WireError} : ¬ Refuses spec args (.wire cause) := by
  intro refuses
  cases refuses with
  | argument _ _ _ _ _ fault => cases fault

end

open Client (Connection ObjectRef SendOutcome)

/-- A request that cannot be written leaves the connection as it is, its outgoing bytes and
    descriptors with it. -/
theorem sendRequest_of_marshal_error {δ : Type} {spec : MessageSpec} {args : List Argument}
    {o : ObjectRef} {opcode : UInt16} {e : MessageError} (c : Connection δ) (final : Bool)
    (outcomes : List SendOutcome) (described : o.interface.request? opcode = some spec)
    (refused : marshal o.id opcode spec args = .error e) :
    ∃ cause, (c.sendRequest o opcode args final outcomes).value = (.error cause, [], c) := by
  obtain unchanged | ⟨_, _, _, _, _, _, _, _, _, sent⟩ :=
    c.sendRequest_value o opcode args final outcomes
  · exact unchanged
  · obtain ⟨found, same, written⟩ := Connection.sendRequest_fits outcomes (congrArg Prod.fst sent)
    obtain rfl : spec = found := Option.some.inj (described.symm.trans same)
    exact absurd (refused.symm.trans written) (by simp)

/-- When a request cannot be written, and what is reported.  The causes are: a signature that makes
    no sense, a wrong number of arguments, an argument of the wrong kind or a null where none is
    allowed, and a message of more than 4096 bytes.  They are reported in this order, of the
    arguments the first that has a fault, a wrong kind before a null, and a message that is too
    long with the length that its bytes would have.  The encoder itself never fails, and nothing
    that waits to be sent changes. -/
theorem marshal_fails_iff {δ : Type} (spec : MessageSpec) (args : List Argument) :
    (∀ object opcode e, marshal object opcode spec args = .error e ↔ Refuses spec args e) ∧
    (∀ object opcode, (∃ e, marshal object opcode spec args = .error e) ↔
      (∃ cause, Signature.parse spec.signature = .error cause) ∨
      ∃ sig, Signature.parse spec.signature = .ok sig ∧
        (sig.args.length ≠ args.length ∨
          (∃ (index : Nat) (expected : ArgSpec) (arg : Argument),
            sig.args[index]? = some expected ∧ args[index]? = some arg ∧
            (expected.kind ≠ arg.kind ∨ DisallowedNull expected arg)) ∨
          4096 < size args)) ∧
    (∀ object opcode, size args = (encode object opcode args).bytes.length) ∧
    (∀ object opcode cause, marshal object opcode spec args ≠ .error (.wire cause)) ∧
    ∀ (c : Connection δ) (o : ObjectRef) opcode final outcomes e,
      o.interface.request? opcode = some spec → marshal o.id opcode spec args = .error e →
      ∃ cause, (c.sendRequest o opcode args final outcomes).value = (.error cause, [], c) := by
  refine ⟨fun _ _ _ => marshal_error_iff, ?_, ?_, ?_, ?_⟩
  · intro object opcode
    simp only [marshal_error_iff]
    exact exists_refuses_iff
  · intro object opcode
    exact (length_encode_bytes object opcode args).symm
  · intro object opcode cause refused
    exact Refuses.no_wire (marshal_error_iff.1 refused)
  · intro c o opcode final outcomes e described refused
    exact sendRequest_of_marshal_error c final outcomes described refused

/-- The second and the third argument of `both` are at fault, and it is the second that is
    reported; `long` has nothing wrong with it but its length. -/
theorem marshal_fails_iff_first :
    let spec : MessageSpec := ⟨"place", "?ouna", [none, none, none, none]⟩
    let both : List Argument := [.object (some 0), .int 5, .newId 0, .array []]
    let long : List Argument := [.object none, .uint 5, .newId 7, .array (List.replicate 4090 0)]
    marshal 3 0 spec both = .error (.argumentMismatch "place" 1 .uint .int) ∧
      marshal 3 0 spec long = .error (.tooLarge 4116) ∧
      ∀ c : Connection Unit,
        ∃ cause, (c.sendRequest ⟨3, 1, ⟨"x", 1, [spec], []⟩, 1⟩ 0 both true []).value =
          (.error cause, [], c) := by
  intro spec both long
  have parsed : Signature.parse "?ouna" = .ok ⟨1, [⟨.object, true⟩, ⟨.uint, false⟩,
    ⟨.newId, false⟩, ⟨.array, false⟩]⟩ := rfl
  have mismatch : Refuses spec both (.argumentMismatch "place" 1 .uint .int) := by
    have fault : FaultAt "place" 1 ⟨.uint, false⟩ (.int 5) _ := .kind (by decide)
    refine .argument parsed rfl ?_ rfl rfl fault
    rintro (_ | i) before
    · exact (fitsAt_iff rfl rfl).2 (by simp [Unfit, DisallowedNull, Argument.kind])
    · exact absurd (Nat.lt_of_succ_lt_succ before) (Nat.not_lt_zero i)
  have length : size long = 4116 := by
    decide +kernel
  have tooLarge : Refuses spec long (.tooLarge (size long)) := by
    refine .tooLarge parsed rfl ?_ (by rw [length]; decide)
    rintro (_ | _ | _ | _ | i)
    · exact (fitsAt_iff rfl rfl).2 (by simp [Unfit, DisallowedNull, Argument.kind])
    · exact (fitsAt_iff rfl rfl).2 (by simp [Unfit, DisallowedNull, Argument.kind])
    · exact (fitsAt_iff rfl rfl).2 (by simp [Unfit, DisallowedNull, Argument.kind])
    · exact (fitsAt_iff rfl rfl).2 (by simp [Unfit, DisallowedNull, Argument.kind])
    · intro _ _ asked
      cases asked
  rw [length] at tooLarge
  obtain ⟨reported, _, _, _, kept⟩ := marshal_fails_iff (δ := Unit) spec both
  have first := (reported 3 0 _).2 mismatch
  refine ⟨first, ((marshal_fails_iff (δ := Unit) spec long).1 3 0 _).2 tooLarge, fun c => ?_⟩
  exact kept c _ _ _ _ _ rfl first

end Wayland.Message
