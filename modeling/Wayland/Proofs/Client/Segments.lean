import Wayland.Proofs.Client.Conservation
import Wayland.Proofs.Client.EventOrder
import Wayland.Proofs.Client.Lineage

/-! # Parts of a run

The accounts of a whole run, taken at two moments of it, give an account of what happens in
between: which events leave a queue, when an event came that is handed out, and where in the
stream the requests are.
-/

namespace Wayland.Client

variable {δ : Type} {protocol : Protocol} {c : Connection δ} {past actions : List (Action δ)}
  {queue : QueueId}

/-- What was in a queue and what goes into it leaves it in this order, or is still there. -/
theorem popped_between {pending rest : List QueuedEvent}
    (reached : c = (Connection.initial protocol).run past)
    (before : c.queues.get? queue = some pending)
    (after : (c.run actions).queues.get? queue = some rest) :
    pending ++ pushedTo queue (c.trace actions) = poppedFrom queue (c.trace actions) ++ rest := by
  subst reached
  obtain ⟨_, start, remains⟩ := (ledger_run protocol past).account queue
  obtain rfl := remains.waiting before
  obtain ⟨_, whole, remains⟩ := (ledger_run protocol (past ++ actions)).account queue
  rw [Connection.run_append] at remains
  obtain rfl := remains.waiting after
  -- What came out before is at the front on both sides.
  rw [Connection.trace_append, pushedTo_append, start, poppedFrom_append, List.append_assoc,
    List.append_assoc] at whole
  exact List.append_cancel_left whole

/-- An event that is handed out to an object which was not there at first came in the meantime. -/
theorem came_between {before after : List (Step δ)} {s : Step δ} {d : Delivery δ}
    (reached : c = (Connection.initial protocol).run past)
    (taken : c.trace actions = before ++ s :: after) (delivered : s.delivery? = some d)
    (new : c.objects.nextGeneration ≤ d.event.generation) :
    ∃ early t late queue, before = early ++ t :: late ∧
      ∃ h ∈ t.handled, h.added? = some (queue, d.event) := by
  subst reached
  obtain ⟨front, action, _, rfl, rfl, rfl, rfl⟩ := Connection.exists_of_trace_eq taken
  cases action with
  | next queue =>
    obtain ⟨events, exist, waiting⟩ := Connection.delivered_waiting delivered
    rw [← Connection.run_append] at exist
    have pushed := (ledger_run protocol (past ++ front)).pushed exist _ waiting
    obtain ⟨t, mem, h, handled, added⟩ := mem_pushedTo.1 pushed
    rw [Connection.trace_append, List.mem_append] at mem
    obtain old | recent := mem
    · -- At that time its sender did not exist.
      obtain ⟨older, present⟩ := Connection.added_generation_lt old handled added
      exact absurd (Nat.lt_of_lt_of_le older present) (Nat.not_lt.2 new)
    · obtain ⟨early, late, split⟩ := List.append_of_mem recent
      exact ⟨early, t, late, queue, split, h, handled, added⟩
  | _ => cases delivered

/-- The requests of a part of a run are in the stream behind those that were accepted before. -/
theorem stream_between (reached : c = (Connection.initial protocol).run past) :
    (taken ((Connection.initial protocol).trace (past ++ actions))).flatMap (·.bytes.toList) ++
        (c.run actions).outbox.bytes.toList =
      (accepted ((Connection.initial protocol).trace past)).flatMap (·.packet.bytes) ++
        (accepted (c.trace actions)).flatMap (·.packet.bytes) := by
  subst reached
  have flows : Flows {} (((Connection.initial protocol).trace (past ++ actions)).flatMap Step.flow)
    ((Connection.initial protocol).run (past ++ actions)).outbox := outflow_flows protocol _
  have bytes := flows.conserved.1
  rw [requests_flatMap_flow, List.flatMap_map, Outflow.sentBytes, transfers_flatMap_flow,
    Connection.run_append] at bytes
  rw [← List.flatMap_append, accepted, accepted, ← List.filterMap_append,
    ← Connection.trace_append]
  exact bytes.symm

end Wayland.Client
