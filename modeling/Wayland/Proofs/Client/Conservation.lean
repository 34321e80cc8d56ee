import Wayland.Proofs.Client.Outflow

/-! # Conservation of the outgoing stream

The outgoing stream is what the socket took in a run, followed by what still waits in the outbox.
It consists of the requests that were accepted, in the order in which they were made: nothing is
lost, sent twice or out of order, wherever the socket stopped (`stream_conserved`).
-/

namespace Wayland.Client

variable {δ : Type}

open Message (Packet)

/-- A request as its sender made it. -/
structure Request where
  object : ObjectRef
  opcode : UInt16
  args : List Argument
  /-- Whether it ends the life of its object. -/
  final : Bool

namespace Request

/-- What goes on the wire. -/
def packet (r : Request) : Packet := Message.encode r.object.id r.opcode r.args

/-- The descriptors among the arguments. -/
def fds (r : Request) : List Fd := r.args.filterMap Argument.fd?

/-- The interface of the object has the request, and its packet is what the arguments are
    marshalled to. -/
def Fits (r : Request) : Prop :=
  ∃ spec, r.object.interface.request? r.opcode = some spec ∧
    Message.marshal r.object.id r.opcode spec r.args = .ok r.packet

end Request

/-- The request that a step made, if it was accepted. -/
def Step.accepted? (s : Step δ) : Option Request :=
  match s.action, s.report.refused with
  | .request o opcode args final _, none => some ⟨o, opcode, args, final⟩
  | _, _ => none

/-- The requests that were accepted, in order. -/
def accepted (steps : List (Step δ)) : List Request := steps.filterMap Step.accepted?

/-- What the socket took, in order. -/
def taken (steps : List (Step δ)) : List Transfer := steps.flatMap (·.report.transfers)

/-! ## What is accepted -/

namespace Connection

variable {c : Connection δ} {o : ObjectRef} {opcode : UInt16} {args : List Argument} {final : Bool}

theorem queueRequest_fits {c' : Connection δ}
    (queued : (c.queueRequest o opcode args).value = .ok c') :
    Request.Fits ⟨o, opcode, args, final⟩ := by
  unfold queueRequest at queued
  split at queued
  · cases queued
  · split at queued
    · cases queued
    next spec described =>
      split at queued
      · cases queued
      · split at queued
        · cases queued
        · rw [Logged.value_bind] at queued
          split at queued
          · cases queued
          next packet written =>
            obtain ⟨_, _, rfl⟩ := Message.marshal_ok_iff.1 written
            exact ⟨spec, described, written⟩

theorem sendRequest_fits (outcomes : List SendOutcome)
    (sent : (c.sendRequest o opcode args final outcomes).value.1 = .ok ()) :
    Request.Fits ⟨o, opcode, args, final⟩ := by
  unfold sendRequest at sent
  split at sent
  · cases sent
  · rw [Logged.value_bind] at sent
    split at sent
    · cases sent
    next queued => exact queueRequest_fits queued

theorem accepted_fits {action : Action δ} {r : Request}
    (accepted : (c.step action).accepted? = some r) : r.Fits := by
  unfold Step.accepted? at accepted
  split at accepted
  next o opcode args final outcomes made granted =>
    cases accepted
    obtain rfl : action = .request o opcode args final outcomes := made
    apply sendRequest_fits outcomes
    simp only [step, perform, Logged.value_bind, Logged.value_pure] at granted
    obtain ⟨_, sent⟩ := refusal_eq_none.1 granted
    exact sent
  · cases accepted

end Connection

/-! ## Steps and the stream -/

theorem requests_append (f g : List Outflow) :
    Outflow.requests (f ++ g) = Outflow.requests f ++ Outflow.requests g :=
  List.filterMap_append

theorem transfers_append (f g : List Outflow) :
    Outflow.transfers (f ++ g) = Outflow.transfers f ++ Outflow.transfers g :=
  List.filterMap_append

theorem requests_sends (sends : List Transfer) : Outflow.requests (sends.map .sent) = [] := by
  simp [Outflow.requests]

theorem transfers_sends (sends : List Transfer) : Outflow.transfers (sends.map .sent) = sends := by
  rw [Outflow.transfers, List.filterMap_map]
  exact List.filterMap_some

theorem requests_flow (s : Step δ) :
    Outflow.requests s.flow = (s.accepted?.map Request.packet).toList := by
  unfold Step.flow Step.accepted?
  rw [requests_append, requests_sends, List.append_nil]
  cases s.action <;> cases s.report.refused <;> rfl

theorem transfers_flow (s : Step δ) : Outflow.transfers s.flow = s.report.transfers := by
  unfold Step.flow
  rw [transfers_append, transfers_sends]
  cases s.action <;> cases s.report.refused <;> rfl

theorem requests_flatMap_flow (steps : List (Step δ)) :
    Outflow.requests (steps.flatMap Step.flow) = (accepted steps).map Request.packet := by
  induction steps with
  | nil => rfl
  | cons s steps ih =>
    rw [List.flatMap_cons, requests_append, requests_flow, ih]
    unfold accepted
    cases made : s.accepted? <;> simp [made]

theorem transfers_flatMap_flow (steps : List (Step δ)) :
    Outflow.transfers (steps.flatMap Step.flow) = taken steps := by
  induction steps with
  | nil => rfl
  | cons s steps ih =>
    rw [List.flatMap_cons, transfers_append, transfers_flow, ih]
    rfl

theorem Transfer.total_eq_length (sends : List Transfer) :
    Transfer.total sends = (sends.flatMap (·.bytes.toList)).length := by
  induction sends with
  | nil => rfl
  | cons send sends ih =>
    rw [List.flatMap_cons, List.length_append, ← ih, Array.length_toList]
    rfl

/-- A flush that succeeds answers how many bytes the socket took, and no bytes are left. -/
theorem Connection.flush_ok {c c' : Connection δ} {outcomes : List SendOutcome} {count : Nat}
    {sends : List Transfer} (flushed : (c.flush outcomes).value = (.ok count, sends, c')) :
    c'.outbox.bytes = #[] ∧ count = (sends.flatMap (·.bytes.toList)).length := by
  unfold flush flushOutbox at flushed
  dsimp only at flushed
  split at flushed
  · cases flushed
  · split at flushed
    next finished =>
      cases flushed
      exact ⟨bytes_nil_of_stop_none finished, Transfer.total_eq_length _⟩
    · cases flushed
    · cases flushed
    · rw [Logged.value_bind] at flushed
      cases flushed

/-- In every run, whatever the socket answers and wherever it stops: the bytes that it took,
    followed by those in the outbox, are the encodings of exactly the requests that were accepted,
    one behind the other, and the same holds of the descriptors among their arguments.  A flush
    succeeds only if no bytes are left, and answers how many bytes the socket took. -/
theorem stream_conserved (protocol : Protocol) (actions : List (Action δ)) :
    let steps := (Connection.initial protocol).trace actions
    let c := (Connection.initial protocol).run actions
    (∀ r ∈ accepted steps, r.Fits) ∧
    (taken steps).flatMap (·.bytes.toList) ++ c.outbox.bytes.toList =
      (accepted steps).flatMap (·.packet.bytes) ∧
    (taken steps).flatMap (·.fds) ++ c.outbox.fds = (accepted steps).flatMap Request.fds ∧
    ∀ outcomes count sends c', (c.flush outcomes).value = (.ok count, sends, c') →
      c'.outbox.bytes = #[] ∧ count = (sends.flatMap (·.bytes.toList)).length := by
  intro steps c
  have fits : ∀ r ∈ accepted steps, r.Fits := by
    intro r mem
    obtain ⟨s, made, granted⟩ := List.mem_filterMap.1 mem
    obtain ⟨_, _, _, _, rfl⟩ := Connection.exists_of_mem_trace made
    exact Connection.accepted_fits granted
  have flows : Flows {} (steps.flatMap Step.flow) c.outbox := outflow_flows protocol actions
  obtain ⟨bytes, fds⟩ := flows.conserved
  rw [requests_flatMap_flow, List.flatMap_map] at bytes fds
  rw [Outflow.sentBytes, transfers_flatMap_flow] at bytes
  rw [Outflow.sentFds, transfers_flatMap_flow] at fds
  exact ⟨fits, bytes.symm, fds.symm, fun _ _ _ _ flushed => Connection.flush_ok flushed⟩

/-- A pair of descriptors is accepted, another request is refused because an argument is missing,
    and the socket takes a part of what waits before it would block. -/
def interruptedPairs : List (Action Unit) :=
  [.create ⟨displayId, 0, Protocol.Core.display, 1⟩ pairs 1,
    .request ⟨2, 1, pairs, 1⟩ 0 [.fd ⟨1⟩, .fd ⟨2⟩] false [],
    .request ⟨2, 1, pairs, 1⟩ 0 [.fd ⟨3⟩] false [],
    .flush [.interrupted, .accepts 3, .wouldBlock],
    .request ⟨2, 1, pairs, 1⟩ 0 [.fd ⟨4⟩, .fd ⟨5⟩] true []]

/-- The next flush sends the other thirteen bytes. -/
theorem stream_conserved_interrupted :
    let steps := (Connection.initial ⟨[]⟩).trace interruptedPairs
    let c := (Connection.initial ⟨[]⟩).run interruptedPairs
    let flushed := (c.flush [.accepts 1, .interrupted, .accepts 20]).value
    (accepted steps).length = 2 ∧ ((taken steps).flatMap (·.bytes.toList)).length = 3 ∧
      flushed.1.toOption = some 13 ∧ flushed.2.2.outbox.bytes = #[] ∧
      (flushed.2.1.flatMap (·.bytes.toList)).length = 13 := by
  intro steps c flushed
  have succeeds : flushed.1.toOption = some 13 := by decide +kernel
  have done : flushed.1 = .ok 13 := by
    cases result : flushed.1 with
    | error cause => simp [result, Except.toOption] at succeeds
    | ok count => simpa [result, Except.toOption] using succeeds
  obtain ⟨_, _, _, complete⟩ := stream_conserved ⟨[]⟩ interruptedPairs
  obtain ⟨bytes, count⟩ := complete _ 13 flushed.2.1 flushed.2.2 (by rw [← done])
  exact ⟨by decide +kernel, by decide +kernel, succeeds, bytes, count.symm⟩

end Wayland.Client
