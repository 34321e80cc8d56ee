import Wayland.Wire.Value

/-! # Numbers for new objects

The client numbers the objects it creates, the compositor those it creates itself: each side has
its own range.  An `IdPool` hands out the client's numbers, the least free one first.  `next` is
the first number never handed out so far, `free` holds the numbers below it that came back, in
ascending order; the numbers at the end of that list that touch `next` are merged into it.
-/

namespace Wayland

namespace ObjectId

/-- The least number of the client's range. -/
def clientMin : ObjectId := 0x00000001

/-- The greatest number of the client's range. -/
def clientMax : ObjectId := 0xfeffffff

/-- The least number of the compositor's range. -/
def serverMin : ObjectId := 0xff000000

/-- Whether a number belongs to the client's range. -/
def isClient (id : ObjectId) : Bool := clientMin ≤ id && id ≤ clientMax

end ObjectId

/-- The numbers that are free. -/
structure IdPool where
  next : ObjectId
  free : List ObjectId
  deriving DecidableEq, Inhabited

namespace IdPool

/-- All numbers of the client's range are taken; `next` is the first one beyond it. -/
inductive Exhausted
  | at (next : ObjectId)
  deriving DecidableEq

/-- The wording of the cause. -/
def Exhausted.message : Exhausted → String
  | .at next => s!"All client IDs have been exhausted (ID {next} is out of the range of "
      ++ s!"{ObjectId.clientMin} - {ObjectId.clientMax})"

/-- A pool whose numbers below `first` are reserved. -/
def startingAt (first : ObjectId) : IdPool := ⟨first, []⟩

/-- A pool with all numbers free. -/
def full : IdPool := startingAt ObjectId.clientMin

/-- The number that `alloc` would hand out. -/
def peek (p : IdPool) : Except Exhausted ObjectId :=
  match p.free with
  | id :: _ => .ok id
  | [] => if p.next ≤ ObjectId.clientMax then .ok p.next else .error (.at p.next)

/-- Hands out a number. -/
def alloc (p : IdPool) : Except Exhausted (ObjectId × IdPool) :=
  match p.free with
  | id :: rest => .ok (id, { p with free := rest })
  | [] =>
    if p.next ≤ ObjectId.clientMax then .ok (p.next, { p with next := p.next + 1 })
    else .error (.at p.next)

/-- Hands out some more numbers; answers what happened to the last one, which is `last` if there
    are none. -/
def allocAfter (last : Option (Except Exhausted ObjectId)) :
    Nat → IdPool → Option (Except Exhausted ObjectId) × IdPool
  | 0, p => (last, p)
  | count + 1, p =>
    match p.alloc with
    | .error cause => (some (.error cause), p)
    | .ok (id, p) => allocAfter (some (.ok id)) count p

/-- Hands out `count` numbers; answers what happened to the last one. -/
def allocMany (p : IdPool) (count : Nat) : Option (Except Exhausted ObjectId) × IdPool :=
  allocAfter none count p

/-- Puts a number into an ascending list, unless it is there already. -/
def insertSorted (id : ObjectId) : List ObjectId → List ObjectId
  | [] => [id]
  | x :: xs =>
    if id < x then id :: x :: xs
    else if id = x then x :: xs
    else x :: insertSorted id xs

/-- Takes numbers off the front of a descending list for as long as they touch `next` from
    below; answers the lowered `next` and what is left of the list. -/
def merge (next : ObjectId) : List ObjectId → ObjectId × List ObjectId
  | [] => (next, [])
  | last :: rest => if last + 1 = next then merge last rest else (next, last :: rest)

/-- Takes a number back.  Numbers of the compositor and numbers that were never handed out are
    ignored. -/
def recycle (p : IdPool) (id : ObjectId) : IdPool :=
  if ObjectId.isClient id && id < p.next then
    let (next, descending) := merge p.next (insertSorted id p.free).reverse
    ⟨next, descending.reverse⟩
  else p

/-- How many numbers are handed out, counting the reserved ones.  A pool that starts at 0 has no
    answer while nothing is handed out. -/
def inUse? (p : IdPool) : Option Nat :=
  if p.next = 0 then none else some (p.next.toNat - 1 - p.free.length)

end IdPool

end Wayland
