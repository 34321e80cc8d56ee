import Wayland.Argument
import Wayland.Interface
import Wayland.Wire.Cursor

/-! # Messages

`marshal` turns a request into bytes and file descriptors, `demarshal` reads an event.  Both
follow the message's signature.  A request that does not fit its signature is refused before a
single byte is written; an event is read argument by argument, so descriptors in front of a fault
are used up.
-/

namespace Wayland

/-- Why a message cannot be written or read. -/
inductive MessageError
  | signature (cause : SignatureError)
  | argumentCount (message : String) (expected found : Nat)
  | argumentMismatch (message : String) (index : Nat) (expected found : ArgKind)
  | nullArgument (message : String) (index : Nat)
  | missingFd (message : String)
  | tooLarge (size : Nat)
  | trailingBytes (message : String) (count : Nat)
  | wire (cause : Wire.WireError)
  deriving DecidableEq

/-- The wording of each cause. -/
def MessageError.message : MessageError → String
  | .signature cause => cause.message
  | .argumentCount message expected found =>
    s!"{message} expects {expected} arguments but {found} were given"
  | .argumentMismatch message index expected found =>
    s!"Argument {index} of {message} must be {expected.name} but {found.name} was given"
  | .nullArgument message index => s!"Argument {index} of {message} is not nullable"
  | .missingFd message => s!"{message} needs a file descriptor that was not received"
  | .tooLarge size =>
    s!"Message of {size} bytes exceeds the maximum of {Wire.maxMessageSize} bytes"
  | .trailingBytes message count => s!"{message} carries {count} unexpected trailing bytes"
  | .wire cause => cause.message

namespace Message

/-- The signature of a message. -/
def signature (spec : MessageSpec) : Except MessageError Signature :=
  (Signature.parse spec.signature).mapError .signature

/-- Whether an argument may be null: never the number of a new object. -/
def mayBeNull (arg : ArgSpec) : Bool := arg.nullable && arg.kind != .newId

/-- Compares arguments with what a signature asks for, one by one from `index` on. -/
def checkEach (name : String) : Nat → List ArgSpec → List Argument → Except MessageError Unit
  | index, expected :: specs, arg :: args =>
    if expected.kind ≠ arg.kind then
      .error (.argumentMismatch name index expected.kind arg.kind)
    else if arg.isNull && !mayBeNull expected then .error (.nullArgument name index)
    else checkEach name (index + 1) specs args
  | _, _, _ => .ok ()

/-- Whether arguments fit a message: their number first, then kind and null for each. -/
def check (spec : MessageSpec) (args : List Argument) : Except MessageError Unit := do
  let expected := (← signature spec).args
  if expected.length ≠ args.length then
    .error (.argumentCount spec.name expected.length args.length)
  else checkEach spec.name 0 expected args

/-- The bytes that arguments take. -/
def sizes (args : List Argument) : Nat := args.foldr (fun arg rest => arg.size + rest) 0

/-- The length of a message with these arguments, header included. -/
def size (args : List Argument) : Nat := Wire.headerSize + sizes args

/-- A message ready to be sent. -/
structure Packet where
  bytes : Wire.Bytes
  fds : List Fd
  deriving DecidableEq

/-- The bytes and descriptors of a message, fit or not. -/
def encode (object : ObjectId) (opcode : UInt16) (args : List Argument) : Packet where
  bytes := (Wire.Value.header ⟨object, opcode, UInt16.ofNat (size args)⟩).encode
    ++ args.flatMap Argument.encode
  fds := args.filterMap Argument.fd?

/-- Writes the arguments that have bytes, one after the other. -/
def writeArguments : Wire.Encoder → List Argument → Except Wire.WireError Wire.Encoder
  | e, [] => .ok e
  | e, arg :: args =>
    match arg.value? with
    | none => writeArguments e args
    | some value =>
      match e.write value with
      | .error cause => .error cause
      | .ok e => writeArguments e args

/-- Fills a message whose length is computed beforehand: the header, then the arguments. -/
def write (object : ObjectId) (opcode : UInt16) (args : List Argument) :
    Except Wire.WireError Wire.Encoder :=
  let blank : Wire.Encoder := { buffer := List.replicate (size args) 0 }
  match blank.write (.header ⟨object, opcode, UInt16.ofNat (size args)⟩) with
  | .error cause => .error cause
  | .ok e => writeArguments e args

/-- The packet of a request whose arguments fit and that is not too long. -/
def marshal (object : ObjectId) (opcode : UInt16) (spec : MessageSpec) (args : List Argument) :
    Except MessageError Packet := do
  check spec args
  if Wire.maxMessageSize < size args then .error (.tooLarge (size args))
  else
    match write object opcode args with
    | .error cause => .error (.wire cause)
    | .ok e => .ok { bytes := e.buffer, fds := args.filterMap Argument.fd? }

/-- The shape on the wire of the arguments of a kind; file descriptors have none. -/
def shape? : ArgKind → Option Wire.Shape
  | .uint | .object | .newId => some .uint
  | .int => some .int
  | .fixed => some .fixed
  | .str => some .optionalText
  | .array => some .array
  | .fd => none

/-- The argument of a kind that a value stands for.  The object number 0 is no object. -/
def ofValue? : ArgKind → Wire.Value → Option Argument
  | .uint, .uint n => some (.uint n)
  | .int, .int n => some (.int n)
  | .fixed, .fixed a => some (.fixed a)
  | .str, .optionalText s => some (.str s)
  | .object, .uint id => some (.object (if id = 0 then none else some id))
  | .newId, .uint id => some (.newId id)
  | .array, .array bytes => some (.array bytes)
  | _, _ => none

/-- Reads one argument; a descriptor is the first of those received. -/
def readArgument (name : String) (kind : ArgKind) (d : Wire.Decoder) (fds : List Fd) :
    Except MessageError (Argument × Wire.Decoder) × List Fd :=
  match shape? kind with
  | none =>
    match fds with
    | [] => (.error (.missingFd name), [])
    | file :: rest => (.ok (.fd file, d), rest)
  | some shape =>
    match d.read shape with
    | .error cause => (.error (.wire cause), fds)
    | .ok (value, d) =>
      match ofValue? kind value with
      | some arg => (.ok (arg, d), fds)
      | none => (.error (.wire .invalidSize), fds)

/-- Reads arguments, numbered from `index` on. -/
def readArguments (name : String) : Nat → List ArgSpec → Wire.Decoder → List Fd →
    Except MessageError (List Argument × Wire.Decoder) × List Fd
  | _, [], d, fds => (.ok ([], d), fds)
  | index, spec :: specs, d, fds =>
    match readArgument name spec.kind d fds with
    | (.error cause, fds) => (.error cause, fds)
    | (.ok (arg, d), fds) =>
      if arg.isNull && !mayBeNull spec then (.error (.nullArgument name index), fds)
      else
        match readArguments name (index + 1) specs d fds with
        | (.error cause, fds) => (.error cause, fds)
        | (.ok (args, d), fds) => (.ok (arg :: args, d), fds)

/-- Reads the arguments of an event from its body and the descriptors received so far, and says
    which descriptors are left.  The body has to end with the last argument. -/
def demarshal (spec : MessageSpec) (body : Wire.Bytes) (fds : List Fd) :
    Except MessageError (List Argument) × List Fd :=
  match signature spec with
  | .error cause => (.error cause, fds)
  | .ok sig =>
    match readArguments spec.name 0 sig.args { bytes := body } fds with
    | (.error cause, fds) => (.error cause, fds)
    | (.ok (args, d), fds) =>
      if d.remaining.isEmpty then (.ok args, fds)
      else (.error (.trailingBytes spec.name d.remaining.length), fds)

end Message

end Wayland
