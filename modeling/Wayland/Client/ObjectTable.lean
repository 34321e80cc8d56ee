import Std.Data.ExtTreeMap
import Wayland.Client.Note

/-! # The objects of a connection

The table has an entry for every number in use.  The client picks the numbers of the objects that
it creates.  A number that the compositor has heard of (`announced`) must not be given to another
object before the compositor has let go of it (`delete_id`).  So an object that is destroyed early
stays in the table as a zombie; events that are still on their way find it there.

Every object gets a new generation.  A holder that remembers number and generation can tell its
own object from a later one with the same number.
-/

namespace Wayland.Client

/-- Distinguishes objects that have the same number at different times.  A client counts them with
    64 bits, so this is exact as long as it has fewer than 2^64 objects in its life. -/
abbrev Generation := Nat

/-- The number of the display. -/
def displayId : ObjectId := 1

namespace QueueId

/-- The queue that every connection has. -/
def default : QueueId := 0

end QueueId

/-- Whether an object is in use or only keeps its number busy. -/
inductive Life
  | live | zombie
  deriving DecidableEq

/-- What the client knows about an object.  `δ` is what the application attaches to objects in
    order to hear of their events. -/
structure Entry (δ : Type) where
  interface : Interface
  version : UInt32
  generation : Generation
  queue : QueueId
  data : Option δ
  owned : Bool
  life : Life
  announced : Bool
  idDeleted : Bool

/-- The objects of a connection, by number. -/
structure ObjectTable (δ : Type) where
  entries : Std.ExtTreeMap ObjectId (Entry δ)
  ids : IdPool
  nextGeneration : Generation

namespace ObjectTable

variable {δ : Type}

/-- The table of a new connection: the display alone. -/
def initial : ObjectTable δ where
  entries := (∅ : Std.ExtTreeMap ObjectId (Entry δ)).insert displayId
    { interface := Protocol.Core.display
      version := Protocol.Core.display.version
      generation := 0
      queue := QueueId.default
      data := none
      owned := true
      life := .live
      announced := true
      idDeleted := false }
  ids := IdPool.startingAt (displayId + 1)
  nextGeneration := 1

/-- The entry with a number, dead or alive. -/
def get? (t : ObjectTable δ) (id : ObjectId) : Option (Entry δ) := t.entries[id]?

/-- The live entry with a number. -/
def live? (t : ObjectTable δ) (id : ObjectId) : Option (Entry δ) :=
  (t.get? id).filter (·.life = .live)

/-- The live entry with a number and a generation. -/
def current? (t : ObjectTable δ) (id : ObjectId) (generation : Generation) : Option (Entry δ) :=
  (t.live? id).filter (·.generation = generation)

/-- Replaces or adds an entry. -/
def put (t : ObjectTable δ) (id : ObjectId) (entry : Entry δ) : ObjectTable δ :=
  { t with entries := t.entries.insert id entry }

/-- Forgets an entry; its number is free again. -/
def remove (t : ObjectTable δ) (id : ObjectId) : ObjectTable δ :=
  { t with entries := t.entries.erase id, ids := t.ids.recycle id }

/-- A new object of the client under the next free number.  The compositor does not know it yet,
    and whoever created it owns it. -/
def insertClient (t : ObjectTable δ) (interface : Interface) (version : UInt32)
    (queue : QueueId) : Except IdPool.Exhausted (ObjectId × Generation × ObjectTable δ) := do
  let (id, ids) ← t.ids.alloc
  let entry : Entry δ :=
    { interface, version, queue
      generation := t.nextGeneration
      data := none
      owned := true
      life := .live
      announced := false
      idDeleted := false }
  return (id, t.nextGeneration,
    { entries := t.entries.insert id entry, ids, nextGeneration := t.nextGeneration + 1 })

/-- A new object of the compositor under the number it chose.  Nobody owns it yet. -/
def insertServer (t : ObjectTable δ) (id : ObjectId) (interface : Interface) (version : UInt32)
    (queue : QueueId) : Except NumberConflict (ObjectTable δ) :=
  if ObjectId.isClient id then .error (.clientRange id)
  else if (t.live? id).isSome then .error (.inUse id)
  else
    let entry : Entry δ :=
      { interface, version, queue
        generation := t.nextGeneration
        data := none
        owned := false
        life := .live
        announced := true
        idDeleted := false }
    .ok { t with
      entries := t.entries.insert id entry
      nextGeneration := t.nextGeneration + 1 }

/-- The compositor is about to hear of a number. -/
def markAnnounced (t : ObjectTable δ) (id : ObjectId) : ObjectTable δ :=
  { t with entries := t.entries.modify id fun entry => { entry with announced := true } }

/-- An object is destroyed by its owner.  The display stays, and so does an object that is not
    the one meant.  A number that the compositor still holds stays busy. -/
def release (t : ObjectTable δ) (id : ObjectId) (generation : Generation) :
    Logged (ObjectTable δ) :=
  if id = displayId then pure t
  else
    match t.current? id generation with
    | none => pure t
    | some entry =>
      if ObjectId.isClient id && entry.announced && !entry.idDeleted then do
        Logged.note (.objectZombie entry.interface.name id)
        return t.put id { entry with data := none, life := .zombie }
      else pure (t.remove id)

/-- The compositor lets go of a number. -/
def deleteId (t : ObjectTable δ) (id : ObjectId) : Logged (ObjectTable δ) :=
  match t.get? id with
  | none => do
    Logged.note (.unknownDeleted id)
    return t
  | some entry =>
    match entry.life with
    | .zombie => pure (t.remove id)
    | .live => pure (t.put id { entry with idDeleted := true })

/-- How many live objects send their events to a queue. -/
def queueUsers (t : ObjectTable δ) (queue : QueueId) : Nat :=
  (t.entries.filter fun _ entry => entry.queue = queue && entry.life = .live).size

/-- Sends the events of all live objects of one queue to another. -/
def reassignQueue (t : ObjectTable δ) (old new : QueueId) : ObjectTable δ :=
  { t with
    entries := t.entries.map fun _ entry =>
      if entry.queue = old && entry.life = .live then { entry with queue := new } else entry }

/-- How many objects have something attached to them. -/
def attachments (t : ObjectTable δ) : Nat :=
  (t.entries.filter fun _ entry => entry.data.isSome).size

/-- Forgets all objects. -/
def clear (t : ObjectTable δ) : ObjectTable δ := { t with entries := ∅ }

end ObjectTable

end Wayland.Client
