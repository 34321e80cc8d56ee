import Wayland.Proofs.Session.LoggedScripts

/-! # Which events of a registry call its handlers

The handlers of registries are set by the application, and they may do anything: set handlers,
dispatch, wait.  An event that finds a handler in its slot calls it.  But a handler is not in its
slot while it runs, so an event that is handed out meanwhile calls nobody, and nobody hears of it
later.
-/

namespace Wayland.Session

open Client (Connection)

/-- The step that sets a handler of a registry. -/
def Notice.step (registry : String) (h : Handler) : Notice → Step
  | .global => .onGlobal registry h
  | .globalRemove => .onGlobalRemove registry h

/-- A handler that is set is in its slot from then on. -/
theorem outcome_sets {patience : Nat} {act : Act} {s : State} {name : String} {p : Proxy}
    {slot : Slot} {h : Handler} (found : s.proxies.find? name = some (.registry p slot.cell)) :
    s.outcome (execute patience act (slot.notice.step name h)) =
      (.ok .null, s.reinstall slot fun _ => some h) := by
  have isRegistry : s.outcome (registryNamed name) = (.ok (p, slot.cell), s) := by
    rw [registryNamed, outcome_bind, outcome_named, found]
    rfl
  cases set : slot.notice with
  | global | globalRemove =>
    rw [Notice.step, execute, outcome_bind_ok isRegistry, State.reinstall, set]
    rfl

/-- What a step returned, if it was a number. -/
def Answer.count? : Answer → Option Nat
  | .mk (.ok (.count n)) _ _ => some n
  | _ => none

/-- The handlers that a step has called. -/
def Answer.calls : Answer → List (Call Answer)
  | .mk _ calls _ => calls

/-- Two globals are announced, and the handler that hears of the first dispatches. -/
def reentrant : List Step :=
  let global (name : UInt32) (interface : String) :=
    (Message.encode 2 0 [.uint name, .str (some interface), .uint 1]).bytes
  [.getRegistry "d" "r", .onGlobal "r" { label := "g", actions := [.dispatchPending "d" none] },
    .serverSend "d" (global 1 "wl_output" ++ global 2 "wl_seat").toArray [], .pump "d"]

end Wayland.Session
