import Wayland.Signature
import Wayland.Wire.Value

/-! # Arguments of messages

An argument is a value on the wire or a file descriptor that travels beside it.  Object numbers
and texts may be null.
-/

namespace Wayland

/-- An open file, named by the token it was made with. -/
structure Fd where
  token : Nat
  deriving DecidableEq, Inhabited

/-- An argument of a request or an event. -/
inductive Argument
  | uint (n : UInt32)
  | int (n : Int32)
  | fixed (a : Fixed)
  | str (s : Option String)
  | object (id : Option ObjectId)
  | newId (id : ObjectId)
  | array (bytes : Wire.Bytes)
  | fd (file : Fd)
  deriving DecidableEq

namespace Argument

def kind : Argument → ArgKind
  | .uint _ => .uint
  | .int _ => .int
  | .fixed _ => .fixed
  | .str _ => .str
  | .object _ => .object
  | .newId _ => .newId
  | .array _ => .array
  | .fd _ => .fd

/-- Whether the argument names nothing: an absent text, or the object number 0. -/
def isNull : Argument → Bool
  | .str none | .object none => true
  | .object (some id) | .newId id => id == 0
  | _ => false

/-- What stands on the wire for the argument; a file descriptor has no bytes. -/
def value? : Argument → Option Wire.Value
  | .uint n => some (.uint n)
  | .int n => some (.int n)
  | .fixed a => some (.fixed a)
  | .str s => some (.optionalText s)
  | .object id => some (.uint (id.getD 0))
  | .newId id => some (.uint id)
  | .array bytes => some (.array bytes)
  | .fd _ => none

/-- The file descriptor of the argument, if it is one. -/
def fd? : Argument → Option Fd
  | .fd file => some file
  | _ => none

/-- The object that the argument creates, if any. -/
def newId? : Argument → Option ObjectId
  | .newId id => some id
  | _ => none

/-- The bytes of the argument with their padding. -/
def encode (arg : Argument) : Wire.Bytes :=
  match arg.value? with
  | some value => Wire.pad value.encode
  | none => []

/-- The number of bytes that the argument takes with its padding. -/
def size (arg : Argument) : Nat :=
  match arg.value? with
  | some value => Wire.padded value.size
  | none => 0

/-! ## Text -/

/-- How an argument is shown to a reader. -/
def text : Argument → String
  | .uint n => toString n
  | .int n => toString n
  | .fixed a => a.text
  | .str (some s) => Text.quoted s
  | .str none | .object none => "nil"
  | .object (some id) => s!"object {id}"
  | .newId id => s!"new id {id}"
  | .array bytes => s!"array[{bytes.length}]"
  | .fd _ => "fd OwnedFd"

/-- Arguments as they stand in the log, separated by commas. -/
def listText (args : List Argument) : String := ", ".intercalate (args.map text)

/-- The contents of a value that may be absent. -/
def optionDetail (shown : Option String) : String :=
  match shown with
  | some s => s!"Some({s})"
  | none => "None"

/-- How an argument is shown with its kind. -/
def detail : Argument → String
  | .uint n => s!"Uint({n})"
  | .int n => s!"Int({n})"
  | .fixed a => s!"Fixed(Fixed({a.raw}))"
  | .str s => s!"Str({optionDetail (s.map Text.quoted)})"
  | .object id => s!"Object({optionDetail (id.map toString)})"
  | .newId id => s!"NewId({id})"
  | .array bytes => "Array([" ++ ", ".intercalate (bytes.map toString) ++ "])"
  | .fd _ => "Fd(OwnedFd)"

/-- Arguments shown with their kinds, in brackets. -/
def listDetail (args : List Argument) : String :=
  "[" ++ ", ".intercalate (args.map detail) ++ "]"

end Argument

end Wayland
