import Wayland.Protocol.Core

/-! # Tables of a small desktop

The tables that every session knows besides the core ones: surfaces and what they are made of,
outputs, keyboards, data transfer, and `x_all` with messages of every kind of argument.
-/

namespace Wayland.Protocol.Known

def surfacePlace : Nat := 4

def regionPlace : Nat := 5

def bufferPlace : Nat := 6

def outputPlace : Nat := 7

def shmPoolPlace : Nat := 9

def keyboardPlace : Nat := 10

def dataOfferPlace : Nat := 12

def compositor : Interface where
  name := "wl_compositor"
  version := 6
  requests := [⟨"create_surface", "n", [some surfacePlace]⟩,
    ⟨"create_region", "n", [some regionPlace]⟩]
  events := []

def surface : Interface where
  name := "wl_surface"
  version := 6
  requests := [⟨"destroy", "", []⟩, ⟨"attach", "?oii", [some bufferPlace, none, none]⟩,
    ⟨"commit", "", []⟩, ⟨"offset", "5ii", [none, none]⟩]
  events := [⟨"enter", "o", [some outputPlace]⟩, ⟨"leave", "o", [some outputPlace]⟩]

def region : Interface where
  name := "wl_region"
  version := 1
  requests := [⟨"destroy", "", []⟩, ⟨"add", "iiii", [none, none, none, none]⟩,
    ⟨"subtract", "iiii", [none, none, none, none]⟩]
  events := []

def buffer : Interface where
  name := "wl_buffer"
  version := 1
  requests := [⟨"destroy", "", []⟩]
  events := [⟨"release", "", []⟩]

def output : Interface where
  name := "wl_output"
  version := 4
  requests := [⟨"release", "3", []⟩]
  events := [⟨"scale", "2i", [none]⟩, ⟨"name", "4s", [none]⟩]

def shm : Interface where
  name := "wl_shm"
  version := 1
  requests := [⟨"create_pool", "nhi", [some shmPoolPlace, none, none]⟩]
  events := [⟨"format", "u", [none]⟩]

def shmPool : Interface where
  name := "wl_shm_pool"
  version := 1
  requests := [⟨"destroy", "", []⟩]
  events := []

def keyboard : Interface where
  name := "wl_keyboard"
  version := 1
  requests := []
  events := [⟨"keymap", "uhu", [none, none, none]⟩]

def dataDevice : Interface where
  name := "wl_data_device"
  version := 1
  requests := []
  events := [⟨"data_offer", "n", [some dataOfferPlace]⟩]

def dataOffer : Interface where
  name := "wl_data_offer"
  version := 1
  requests := [⟨"destroy", "", []⟩]
  events := [⟨"offer", "s", [none]⟩]

/-- The message with an argument of every kind. -/
def everything : MessageSpec := ⟨"everything", "uifs?s?oah", List.replicate 8 none⟩

def xAll : Interface where
  name := "x_all"
  version := 3
  requests := [everything, ⟨"array", "a", [none]⟩, ⟨"fds", "2hh", [none, none]⟩,
    ⟨"text", "s", [none]⟩]
  events := [everything, ⟨"array", "a", [none]⟩, ⟨"fds", "2hh", [none, none]⟩,
    ⟨"pair", "nn", [some dataOfferPlace, some keyboardPlace]⟩, ⟨"untyped", "n", [none]⟩,
    ⟨"maybe", "?s?o", [none, none]⟩]

/-- All tables known from the start, in their places. -/
def protocol : Protocol where
  interfaces := Core.tables ++ [compositor, surface, region, buffer, output, shm, shmPool,
    keyboard, dataDevice, dataOffer, xAll]

/-- The places are those of the tables they are named for. -/
example : (["wl_surface", "wl_region", "wl_buffer", "wl_output", "wl_shm_pool", "wl_keyboard",
      "wl_data_offer"].map protocol.place?)
    = [surfacePlace, regionPlace, bufferPlace, outputPlace, shmPoolPlace, keyboardPlace,
      dataOfferPlace].map some := by
  decide +kernel

end Wayland.Protocol.Known
