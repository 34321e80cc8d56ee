import Wayland.Signature

/-! # Interfaces

An interface is a table of requests and events.  The tables of a program form a `Protocol`; an
argument that names an object says which table describes it by the table's place in the protocol,
so tables may refer to each other and to themselves.  Two tables with the same name describe the
same interface.
-/

namespace Wayland

/-- One request or event of an interface. -/
structure MessageSpec where
  name : String
  signature : String
  /-- For each argument the place of the table of the object it names. -/
  types : List (Option Nat)
  deriving DecidableEq, Inhabited

/-- A table of requests and events. -/
structure Interface where
  name : String
  version : UInt32
  requests : List MessageSpec
  events : List MessageSpec
  deriving DecidableEq, Inhabited

namespace Interface

/-- The request with an opcode. -/
def request? (i : Interface) (opcode : UInt16) : Option MessageSpec := i.requests[opcode.toNat]?

/-- The event with an opcode. -/
def event? (i : Interface) (opcode : UInt16) : Option MessageSpec := i.events[opcode.toNat]?

/-- Whether two tables describe the same interface. -/
def same (i j : Interface) : Bool := i.name == j.name

/-- How an interface is shown. -/
def shown (i : Interface) : String :=
  "Interface \x7b name: " ++ Text.quoted i.name ++ ", version: " ++ toString i.version
    ++ ", .. \x7d"

end Interface

/-- The tables that a program knows. -/
structure Protocol where
  interfaces : List Interface
  deriving DecidableEq, Inhabited

namespace Protocol

/-- The last table with a name: a later table replaces an earlier one. -/
def find? (p : Protocol) (name : String) : Option Interface :=
  p.interfaces.reverse.find? (·.name == name)

/-- The place of the last table with a name. -/
def place? (p : Protocol) (name : String) : Option Nat :=
  (p.interfaces.reverse.findIdx? (·.name == name)).map (p.interfaces.length - 1 - ·)

/-- The table of the object that an argument names. -/
def argInterface? (p : Protocol) (spec : MessageSpec) (index : Nat) : Option Interface :=
  (spec.types[index]?.join).bind (p.interfaces[·]?)

/-- A message whose arguments name tables instead of places. -/
structure MessageDraft where
  name : String
  signature : String
  types : List (Option String)

/-- A table that is yet to be added. -/
structure Draft where
  name : String
  version : UInt32
  requests : List MessageDraft
  events : List MessageDraft

/-- A message with the names replaced by places. -/
def resolve (p : Protocol) (m : MessageDraft) : MessageSpec where
  name := m.name
  signature := m.signature
  types := m.types.map (·.bind p.place?)

/-- Adds a table; it may name the tables before it. -/
def add (p : Protocol) (draft : Draft) : Protocol where
  interfaces := p.interfaces ++
    [{ name := draft.name
       version := draft.version
       requests := draft.requests.map p.resolve
       events := draft.events.map p.resolve }]

end Protocol

end Wayland
