import Wayland.Text.Digits
import Wayland.Text.Quoted

/-! # Message signatures

A signature lists the arguments of a message, one letter each.  A question mark before a letter
says that the argument may be null.  Digits in front give the interface version that introduced
the message; without them it is 1.
-/

namespace Wayland

/-- The kind of an argument. -/
inductive ArgKind
  | uint | int | fixed | str | object | newId | array | fd
  deriving DecidableEq

namespace ArgKind

/-- The letter of a kind. -/
def tag : ArgKind → Char
  | .uint => 'u'
  | .int => 'i'
  | .fixed => 'f'
  | .str => 's'
  | .object => 'o'
  | .newId => 'n'
  | .array => 'a'
  | .fd => 'h'

/-- The kind with a letter. -/
def ofTag? : Char → Option ArgKind
  | 'u' => some .uint
  | 'i' => some .int
  | 'f' => some .fixed
  | 's' => some .str
  | 'o' => some .object
  | 'n' => some .newId
  | 'a' => some .array
  | 'h' => some .fd
  | _ => none

/-- The name of a kind in messages. -/
def name : ArgKind → String
  | .uint => "Uint"
  | .int => "Int"
  | .fixed => "Fixed"
  | .str => "Str"
  | .object => "Object"
  | .newId => "NewId"
  | .array => "Array"
  | .fd => "Fd"

end ArgKind

/-- One argument of a signature. -/
structure ArgSpec where
  kind : ArgKind
  nullable : Bool
  deriving DecidableEq

/-- What a signature says. -/
structure Signature where
  since : UInt32
  args : List ArgSpec
  deriving DecidableEq

/-- Why a text is no signature. -/
inductive SignatureError
  /-- A letter that names no kind, or a second question mark in a row. -/
  | unknownTag (tag : Char) (signature : String)
  /-- A question mark at the end. -/
  | danglingNullable (signature : String)
  /-- Digits whose value does not fit 32 bits. -/
  | invalidSince (signature : String)
  deriving DecidableEq

/-- The wording of each cause. -/
def SignatureError.message : SignatureError → String
  | .unknownTag tag signature =>
    "Unknown argument tag " ++ Text.quotedChar tag ++ " in signature " ++ Text.quoted signature
  | .danglingNullable signature =>
    "Signature " ++ Text.quoted signature ++ " ends with a nullable marker"
  | .invalidSince signature =>
    "Signature " ++ Text.quoted signature ++ " has an invalid since version"

namespace Signature

/-- The version in front of the arguments: 1 without digits, none if it does not fit 32 bits. -/
def sinceOf? (digits : List Char) : Option UInt32 :=
  if digits.isEmpty then some 1
  else
    let value := Text.digitsValue digits
    if value < UInt32.size then some (UInt32.ofNat value) else none

/-- Why a list of letters is refused. -/
inductive TagFault
  | unknown (tag : Char)
  | dangling

/-- Reads the letters; `marked` says that a question mark stands right before them. -/
def readTags : Bool → List Char → Except TagFault (List ArgSpec)
  | false, [] => .ok []
  | true, [] => .error .dangling
  | marked, tag :: rest =>
    if tag = '?' && !marked then readTags true rest
    else
      match ArgKind.ofTag? tag with
      | none => .error (.unknown tag)
      | some kind =>
        match readTags false rest with
        | .ok args => .ok (⟨kind, marked⟩ :: args)
        | .error fault => .error fault

/-- Reads a signature. -/
def parse (text : String) : Except SignatureError Signature :=
  let digits := text.toList.takeWhile Char.isDigit
  match sinceOf? digits with
  | none => .error (.invalidSince text)
  | some since =>
    match readTags false (text.toList.dropWhile Char.isDigit) with
    | .ok args => .ok ⟨since, args⟩
    | .error (.unknown tag) => .error (.unknownTag tag text)
    | .error .dangling => .error (.danglingNullable text)

/-- How many file descriptors the message carries. -/
def fdCount (s : Signature) : Nat := (s.args.filter (·.kind = .fd)).length

end Signature

end Wayland
