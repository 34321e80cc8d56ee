import Wayland.Interface

/-! # The three interfaces that every connection knows

`wl_display` is the object with number 1; it hands out registries and callbacks.
-/

namespace Wayland.Protocol.Core

/-- Place of `wl_registry` in a protocol that starts with the core tables. -/
def registryPlace : Nat := 1

/-- Place of `wl_callback` in a protocol that starts with the core tables. -/
def callbackPlace : Nat := 2

def display : Interface where
  name := "wl_display"
  version := 1
  requests := [⟨"sync", "n", [some callbackPlace]⟩, ⟨"get_registry", "n", [some registryPlace]⟩]
  events := [⟨"error", "ous", [none, none, none]⟩, ⟨"delete_id", "u", [none]⟩]

def registry : Interface where
  name := "wl_registry"
  version := 1
  requests := [⟨"bind", "usun", [none, none, none, none]⟩]
  events := [⟨"global", "usu", [none, none, none]⟩, ⟨"global_remove", "u", [none]⟩]

def callback : Interface where
  name := "wl_callback"
  version := 1
  requests := []
  events := [⟨"done", "u", [none]⟩]

/-- The core tables, in their places. -/
def tables : List Interface := [display, registry, callback]

/-- Opcode of `wl_display.sync`. -/
def syncRequest : UInt16 := 0

/-- Opcode of `wl_display.get_registry`. -/
def getRegistryRequest : UInt16 := 1

/-- Opcode of `wl_registry.bind`. -/
def bindRequest : UInt16 := 0

/-- Opcode of `wl_display.error`. -/
@[match_pattern] def errorEvent : UInt16 := 0

/-- Opcode of `wl_display.delete_id`. -/
@[match_pattern] def deleteIdEvent : UInt16 := 1

/-- The errors that `wl_display` itself can report. -/
inductive DisplayError
  | invalidObject | invalidMethod | noMemory | implementation
  deriving DecidableEq

/-- The error with a code. -/
def DisplayError.ofCode? (code : UInt32) : Option DisplayError :=
  match code.toNat with
  | 0 => some .invalidObject
  | 1 => some .invalidMethod
  | 2 => some .noMemory
  | 3 => some .implementation
  | _ => none

end Wayland.Protocol.Core
