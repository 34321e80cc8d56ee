import Wayland.Message
import Wayland.Proofs.Wire.Canonical

/-! # Reading within bounds

A reader cuts pieces out of the bytes that it has got, and keeps positions in them.  That makes
sense only within bounds.  The definitions here read with care: there is no answer once a piece
does not lie within the bytes, a difference is negative or a position leaves 64 bits.

Length words come from outside and say what they like.  Still there is always an answer, the one
that reading without care gives (`Shape.decode?_eq`, `Decoder.read?_eq`, `demarshal?_eq`).
-/

namespace Wayland.Wire

/-! ## Pieces -/

/-- A difference, unless it is negative. -/
def minus? (n k : Nat) : Option Nat := if k ≤ n then some (n - k) else none

/-- A number, unless it leaves 64 bits. -/
def within64? (n : Nat) : Option Nat := if n < UInt64.size then some n else none

/-- The bytes from one position to another, unless they do not lie within. -/
def slice? (bytes : Bytes) (start stop : Nat) : Option Bytes :=
  if start ≤ stop ∧ stop ≤ bytes.length then some ((bytes.take stop).drop start) else none

/-- What is left when the first `count` are taken away, unless there are fewer. -/
def drain? {α : Type} (xs : List α) (count : Nat) : Option (List α) :=
  if count ≤ xs.length then some (xs.drop count) else none

theorem minus?_of_le {n k : Nat} (enough : k ≤ n) : minus? n k = some (n - k) := if_pos enough

theorem slice?_of_le {bytes : Bytes} {start stop : Nat} (ordered : start ≤ stop)
    (within : stop ≤ bytes.length) :
    slice? bytes start stop = some ((bytes.take stop).drop start) :=
  if_pos ⟨ordered, within⟩

theorem slice?_to_end {bytes : Bytes} {start : Nat} (within : start ≤ bytes.length) :
    slice? bytes start bytes.length = some (bytes.drop start) := by
  rw [slice?_of_le within (Nat.le_refl _), List.take_length]

theorem drain?_of_le {α : Type} {xs : List α} {count : Nat} (enough : count ≤ xs.length) :
    drain? xs count = some (xs.drop count) :=
  if_pos enough

/-- Whoever takes no more than there are is always within bounds. -/
theorem drain?_min {α : Type} (xs : List α) (count : Nat) :
    drain? xs (min count xs.length) = some (xs.drop count) := by
  rw [drain?_of_le (Nat.min_le_right _ _), ← List.drop_eq_drop_min]

/-! ## Values -/

/-- Reads a length word, and makes sure that as many bytes follow. -/
def readLength? (bytes : Bytes) : Option (Except WireError Nat) :=
  match readWord bytes with
  | .error cause => some (.error cause)
  | .ok (length, _) => do
    if (← minus? bytes.length 4) < length.toNat then return .error .invalidSize
    else return .ok length.toNat

/-- Reads a length word and as many bytes, with care. -/
def readCounted? (bytes : Bytes) : Option (Except WireError Bytes) := do
  match ← readLength? bytes with
  | .error cause => return .error cause
  | .ok length => return .ok (← slice? bytes 4 (4 + length))

/-- Reads a text that has to be there, with care. -/
def readText? (bytes : Bytes) : Option (Except WireError String) := do
  match ← readLength? bytes with
  | .error cause => return .error cause
  | .ok length =>
    if length = 0 then return .error .unexpectedNull
    else
      let content ← slice? bytes 4 (4 + length)
      if content.getLast? ≠ some 0 then return .error .missingTerminator
      else
        match textOfBytes? content.dropLast with
        | some text => return .ok text
        | none => return .error .invalidUtf8

/-- Reads the value of a shape, with care. -/
def Shape.decode? (shape : Shape) (bytes : Bytes) : Option (Except WireError Value) :=
  match shape with
  | .text => do
    match ← readText? bytes with
    | .error cause => return .error cause
    | .ok s => return .ok (.text s)
  | .optionalText =>
    match readWord bytes with
    | .error cause => some (.error cause)
    | .ok (length, _) =>
      if length = 0 then some (.ok (.optionalText none))
      else do
        match ← readText? bytes with
        | .error cause => return .error cause
        | .ok s => return .ok (.optionalText (some s))
  | .array => do
    match ← readCounted? bytes with
    | .error cause => return .error cause
    | .ok content => return .ok (.array content)
  | words => some (words.decode bytes)

theorem readLength?_cases (bytes : Bytes) :
    (∃ cause, readLength? bytes = some (.error cause) ∧ readCounted bytes = .error cause) ∨
    ∃ content, readLength? bytes = some (.ok content.length) ∧
      slice? bytes 4 (4 + content.length) = some content ∧ readCounted bytes = .ok content := by
  cases first : readWord bytes with
  | error cause =>
    left
    refine ⟨cause, ?_, ?_⟩
    · simp only [readLength?, first]
    · simp only [readCounted, first]
      rfl
  | ok result =>
    obtain ⟨length, rest⟩ := result
    -- The word has four bytes, so that the difference is what follows it.
    have spelled := readWord_ok.1 first
    have long : bytes.length = 4 + rest.length := by rw [spelled, List.length_append]; rfl
    have room : minus? bytes.length 4 = some rest.length := by
      rw [minus?_of_le (by omega), long, Nat.add_sub_cancel_left]
    by_cases short : rest.length < length.toNat
    · left
      refine ⟨.invalidSize, ?_, ?_⟩
      · simp [readLength?, first, room, short]
      · have cut : (rest.take length.toNat).length < length.toNat := by
          rw [List.length_take]
          omega
        simp only [readCounted, first, bind, Except.bind]
        rw [if_pos cut]
    · right
      have whole : (rest.take length.toNat).length = length.toNat :=
        List.length_take_of_le (Nat.not_lt.1 short)
      refine ⟨rest.take length.toNat, ?_, ?_, ?_⟩
      · simp [readLength?, first, room, short, whole]
      · rw [whole, slice?_of_le (by omega) (by omega), spelled]
        simp [List.take_append]
      · simp [readCounted, first, bind, Except.bind, whole]

theorem readCounted?_eq (bytes : Bytes) : readCounted? bytes = some (readCounted bytes) := by
  obtain ⟨cause, length, plain⟩ | ⟨content, length, piece, plain⟩ := readLength?_cases bytes
  · simp [readCounted?, length, plain]
  · simp [readCounted?, length, piece, plain]

theorem readText?_eq (bytes : Bytes) : readText? bytes = some (readText bytes) := by
  obtain ⟨cause, length, plain⟩ | ⟨content, length, piece, plain⟩ := readLength?_cases bytes
  · simp [readText?, readText, length, plain, bind, Except.bind]
  · cases last : content.getLast? with
    | none =>
      obtain rfl := List.getLast?_eq_none_iff.1 last
      simp [readText?, readText, length, plain, bind, Except.bind]
    | some byte =>
      have filled : content ≠ [] := by
        rintro rfl
        cases last
      by_cases zero : byte = 0
      · cases found : textOfBytes? content.dropLast <;>
          simp [readText?, readText, length, piece, plain, last, filled, zero, found, bind,
            Except.bind]
      · simp [readText?, readText, length, piece, plain, last, filled, zero, bind, Except.bind]

/-- No length word leads out of the bytes. -/
theorem Shape.decode?_eq (shape : Shape) (bytes : Bytes) :
    shape.decode? bytes = some (shape.decode bytes) := by
  cases shape with
  | text =>
    cases read : readText bytes <;>
      simp [decode?, decode, readText?_eq, read, bind, Except.bind, pure, Except.pure]
  | optionalText =>
    cases first : readWord bytes with
    | error cause => simp [decode?, decode, first, bind, Except.bind]
    | ok result =>
      by_cases absent : result.1 = 0
      · simp [decode?, decode, first, absent, bind, Except.bind, pure, Except.pure]
      · cases read : readText bytes <;>
          simp [decode?, decode, first, absent, readText?_eq, read, bind, Except.bind, pure,
            Except.pure]
  | array =>
    cases read : readCounted bytes <;>
      simp [decode?, decode, readCounted?_eq, read, bind, Except.bind, pure, Except.pure]
  | _ => rfl

/-! ## Positions -/

theorem Shape.size_bounds {shape : Shape} {bytes : Bytes} {v : Value}
    (decoded : shape.decode bytes = .ok v) : 4 ≤ v.size ∧ v.size ≤ bytes.length := by
  obtain ⟨_, _, first⟩ := Shape.decode_ok.1 decoded
  have long := first.length_le
  rw [Value.length_encode] at long
  refine ⟨?_, long⟩
  cases v <;> simp [Value.size]

namespace Decoder

/-- The bytes still to be read, with care.  A position beyond the end counts as the end. -/
def remaining? (d : Decoder) : Option Bytes :=
  slice? d.bytes (min d.position d.bytes.length) d.bytes.length

/-- Reads a value and moves over it, with care. -/
def read? (d : Decoder) (shape : Shape) : Option (Except WireError (Value × Decoder)) := do
  match ← shape.decode? (← d.remaining?) with
  | .error cause => return .error cause
  | .ok value =>
    let next ← within64? (d.position + value.size + 3)
    return .ok (value, { d with position := next / 4 * 4 })

theorem remaining?_eq (d : Decoder) : d.remaining? = some d.remaining := by
  rw [remaining?, slice?_to_end (Nat.min_le_right _ _), ← List.drop_eq_drop_min]
  rfl

/-- Where a value can be read, its end is in front of the end of the bytes, so that the position
    stays small. -/
theorem read?_eq {d : Decoder} (short : d.bytes.length + 3 < UInt64.size) (shape : Shape) :
    d.read? shape = some (d.read shape) := by
  unfold read?
  rw [remaining?_eq, Option.bind_eq_bind, Option.bind_some, Shape.decode?_eq, Option.bind_eq_bind,
    Option.bind_some]
  cases decoded : shape.decode d.remaining with
  | error cause => simp [read, decoded, bind, Except.bind]
  | ok value =>
    obtain ⟨low, high⟩ := Shape.size_bounds decoded
    rw [remaining, List.length_drop] at high
    have next : within64? (d.position + value.size + 3) = some (d.position + value.size + 3) :=
      if_pos (by omega)
    simp [read, decoded, next, padded, bind, Except.bind, pure, Except.pure]

theorem bytes_of_read {d d' : Decoder} {shape : Shape} {v : Value}
    (read : d.read shape = .ok (v, d')) : d'.bytes = d.bytes := by
  obtain ⟨value, _, read⟩ := of_bind_ok read
  cases read
  rfl

end Decoder

end Wayland.Wire

namespace Wayland.Message

open Wire (Decoder)

/-! ## Messages -/

/-- Reads one argument, with care. -/
def readArgument? (name : String) (kind : ArgKind) (d : Decoder) (fds : List Fd) :
    Option (Except MessageError (Argument × Decoder) × List Fd) :=
  match shape? kind with
  | none => some (readArgument name kind d fds)
  | some shape => do
    match ← d.read? shape with
    | .error cause => return (.error (.wire cause), fds)
    | .ok (value, d) =>
      match ofValue? kind value with
      | some arg => return (.ok (arg, d), fds)
      | none => return (.error (.wire .invalidSize), fds)

/-- Reads arguments, with care. -/
def readArguments? (name : String) : Nat → List ArgSpec → Decoder → List Fd →
    Option (Except MessageError (List Argument × Decoder) × List Fd)
  | _, [], d, fds => some (.ok ([], d), fds)
  | index, spec :: specs, d, fds => do
    match ← readArgument? name spec.kind d fds with
    | (.error cause, fds) => return (.error cause, fds)
    | (.ok (arg, d), fds) =>
      if arg.isNull && !mayBeNull spec then return (.error (.nullArgument name index), fds)
      else
        match ← readArguments? name (index + 1) specs d fds with
        | (.error cause, fds) => return (.error cause, fds)
        | (.ok (args, d), fds) => return (.ok (arg :: args, d), fds)

/-- Reads the arguments of an event, with care. -/
def demarshal? (spec : MessageSpec) (body : Wire.Bytes) (fds : List Fd) :
    Option (Except MessageError (List Argument) × List Fd) :=
  match signature spec with
  | .error cause => some (.error cause, fds)
  | .ok sig => do
    match ← readArguments? spec.name 0 sig.args { bytes := body } fds with
    | (.error cause, fds) => return (.error cause, fds)
    | (.ok (args, d), fds) =>
      let left ← d.remaining?
      if left.isEmpty then return (.ok args, fds)
      else return (.error (.trailingBytes spec.name left.length), fds)

theorem readArgument?_eq {d : Decoder} (short : d.bytes.length + 3 < UInt64.size) (name : String)
    (kind : ArgKind) (fds : List Fd) :
    readArgument? name kind d fds = some (readArgument name kind d fds) := by
  unfold readArgument?
  split
  · rfl
  next shape shaped =>
    rw [Decoder.read?_eq short, Option.bind_eq_bind, Option.bind_some]
    simp only [readArgument, shaped]
    cases d.read shape with
    | error cause => rfl
    | ok result =>
      dsimp only
      cases ofValue? kind result.1 <;> rfl

theorem bytes_of_readArgument {name : String} {kind : ArgKind} {d d' : Decoder} {fds fds' : List Fd}
    {arg : Argument} (read : readArgument name kind d fds = (.ok (arg, d'), fds')) :
    d'.bytes = d.bytes := by
  unfold readArgument at read
  split at read
  · split at read <;> cases read
    rfl
  · split at read
    · cases read
    next moved =>
      split at read <;> cases read
      exact Decoder.bytes_of_read moved

theorem readArguments?_eq {d : Decoder} (short : d.bytes.length + 3 < UInt64.size) (name : String)
    (index : Nat) (specs : List ArgSpec) (fds : List Fd) :
    readArguments? name index specs d fds = some (readArguments name index specs d fds) := by
  induction specs generalizing index d fds with
  | nil => rfl
  | cons spec specs ih =>
    rw [readArguments?, readArguments, readArgument?_eq short, Option.bind_eq_bind,
      Option.bind_some]
    rcases first : readArgument name spec.kind d fds with ⟨cause | ⟨arg, d'⟩, rest⟩
    · rfl
    · dsimp only
      by_cases null : (arg.isNull && !mayBeNull spec) = true
      · rw [if_pos null, if_pos null]
        rfl
      · rw [← bytes_of_readArgument first] at short
        rw [if_neg null, if_neg null, ih short, Option.bind_eq_bind, Option.bind_some]
        rcases readArguments name (index + 1) specs d' rest with ⟨_ | _, _⟩ <;> rfl

/-- Whatever the body of a message is, it is read within bounds. -/
theorem demarshal?_eq (spec : MessageSpec) {body : Wire.Bytes}
    (short : body.length + 3 < UInt64.size) (fds : List Fd) :
    demarshal? spec body fds = some (demarshal spec body fds) := by
  unfold demarshal? demarshal
  cases signature spec with
  | error cause => rfl
  | ok sig =>
    have within : ({ bytes := body } : Decoder).bytes.length + 3 < UInt64.size := short
    dsimp only
    rw [readArguments?_eq within, Option.bind_eq_bind, Option.bind_some]
    rcases readArguments spec.name 0 sig.args { bytes := body } fds with ⟨_ | ⟨args, d⟩, rest⟩
    · rfl
    · dsimp only
      rw [Decoder.remaining?_eq, Option.bind_eq_bind, Option.bind_some]
      by_cases read : d.remaining.isEmpty = true
      · rw [if_pos read, if_pos read]
        rfl
      · rw [if_neg read, if_neg read]
        rfl

end Wayland.Message
