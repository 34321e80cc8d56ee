import Wayland.Client.ObjectTable
import Wayland.Text.Blank
import Wayland.Text.Lossy

/-! # Where the compositor is

A client is handed an open socket, or it finds the compositor's socket by a path.  Which of the
two, and which path, follows from three variables of the environment: `WAYLAND_SOCKET`,
`WAYLAND_DISPLAY` and `XDG_RUNTIME_DIR`.  Values and paths are bytes; they need not be text.
-/

namespace Wayland.Endpoint

open Wire (Bytes)

/-- The variables of the environment that matter. -/
structure Environment where
  /-- `WAYLAND_SOCKET` -/
  socket : Option Bytes
  /-- `WAYLAND_DISPLAY` -/
  display : Option Bytes
  /-- `XDG_RUNTIME_DIR` -/
  runtimeDir : Option Bytes

/-- Where to connect. -/
inductive Target
  /-- To an open descriptor. -/
  | descriptor (number : Nat)
  | path (path : Bytes)
  deriving DecidableEq

/-- Why there is nowhere to connect. -/
inductive TargetError
  | noRuntimeDir
  | invalidDescriptor (value : Bytes)
  deriving DecidableEq

/-- The wording of each cause. -/
def TargetError.message : TargetError → String
  | .noRuntimeDir => "XDG_RUNTIME_DIR cannot be found in the environment."
  | .invalidDescriptor value =>
    "WAYLAND_SOCKET is not a file descriptor: " ++ Text.quoted (Text.lossy value)

/-! ## Descriptors -/

/-- The number that decimal digits stand for; there has to be one digit at least. -/
def decimal? (digits : List Char) : Option Nat :=
  if digits.isEmpty || !digits.all Char.isDigit then none
  else some (Text.digitsValue digits)

/-- The greatest number of a descriptor. -/
def maxDescriptor : Nat := 0x7fffffff

/-- The descriptor that some characters stand for: a number, with a sign or without.  The only
    one with a minus sign is 0. -/
def descriptor? (cs : List Char) : Option Nat :=
  match cs with
  | '+' :: digits => (decimal? digits).filter (· ≤ maxDescriptor)
  | '-' :: digits => (decimal? digits).filter (· = 0)
  | digits => (decimal? digits).filter (· ≤ maxDescriptor)

/-- The descriptor that the value of `WAYLAND_SOCKET` stands for; blanks around it are ignored. -/
def socketDescriptor? (value : Bytes) : Option Nat := do
  let text ← Wire.textOfBytes? value
  descriptor? (Text.trimBlanks text.toList)

/-! ## Paths -/

/-- Separates the components of a path. -/
def separator : UInt8 := 0x2F

/-- Whether a path starts at the root. -/
def isAbsolute (path : Bytes) : Bool := path.head? == some separator

/-- A path below a directory.  Nothing is added to an empty directory or to one that ends with a
    separator. -/
def join (dir path : Bytes) : Bytes :=
  if isAbsolute path then path
  else
    match dir.getLast? with
    | none => path
    | some last => if last = separator then dir ++ path else dir ++ separator :: path

/-- The display that is meant if none is named. -/
def defaultDisplay : Bytes := Wire.textBytes "wayland-0"

/-- The path of a display's socket. -/
def socketPath (display runtimeDir : Option Bytes) : Except TargetError Bytes :=
  let display := display.getD defaultDisplay
  if isAbsolute display then .ok display
  else
    match runtimeDir with
    | none => .error .noRuntimeDir
    | some dir => .ok (join dir display)

/-- Where to connect.  A display named by the caller wins over a socket that was handed down, and
    that over the variables that make up a path. -/
def target (env : Environment) (name : Option Bytes) : Except TargetError Target :=
  match name, env.socket with
  | some name, _ => (socketPath (some name) env.runtimeDir).map .path
  | none, some value =>
    match socketDescriptor? value with
    | some number => .ok (.descriptor number)
    | none => .error (.invalidDescriptor value)
  | none, none => (socketPath env.display env.runtimeDir).map .path

/-! ## Connecting -/

/-- What there is to connect to. -/
structure Surroundings where
  /-- The descriptor handed down can be made a connection. -/
  usable : Bool
  /-- A directory and the name of the only socket in it that takes connections. -/
  listening : Option (Bytes × Bytes)

/-- How an attempt to connect ends. -/
inductive Outcome
  /-- There is a display with this object. -/
  | connected (id : ObjectId) (interface : String)
  /-- Nobody listens at the path. -/
  | refused (path : Bytes)
  /-- The descriptor handed down is of no use. -/
  | unusable
  | nowhere (cause : TargetError)
  deriving DecidableEq

/-- The components of a path. -/
def components : Bytes → List Bytes
  | [] => [[]]
  | byte :: bytes =>
    if byte = separator then [] :: components bytes
    else
      match components bytes with
      | first :: rest => (byte :: first) :: rest
      | [] => [[byte]]

/-- Whether a path leads to a name in a directory: below the directory there are only empty
    components and those that stay where they are, and then the name. -/
def leadsTo (dir name path : Bytes) : Bool :=
  dir.isPrefixOf path &&
    match components (path.drop dir.length) with
    | [] :: rest =>
      rest.getLast? == some name
        && rest.dropLast.all fun c => c.isEmpty || c == Wire.textBytes "."
    | _ => false

/-- Connects to a display. -/
def connect (around : Surroundings) (env : Environment) (name : Option Bytes) : Outcome :=
  match target env name with
  | .error cause => .nowhere cause
  | .ok (.descriptor _) =>
    if around.usable then .connected Client.displayId Protocol.Core.display.name else .unusable
  | .ok (.path path) =>
    match around.listening with
    | some (dir, socket) =>
      if leadsTo dir socket path then .connected Client.displayId Protocol.Core.display.name
      else .refused path
    | none => .refused path

end Wayland.Endpoint
