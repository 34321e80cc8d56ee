import Wayland.Proofs.Client.Run

/-! # The outgoing stream

Requests go into the outbox as bytes and descriptors, and the socket takes both out again, the
bytes in pieces of any length and the descriptors a limited number at a time.  `Outflow` records
what steps of a run show of this, and `Flows` says how the outbox follows it.

Nothing is lost on the way (`Flows.conserved`).  But a descriptor may come late: its message may
have left before it.  `timely_after_send` says exactly when that happens.
-/

namespace Wayland.Client

variable {δ : Type}

open Message (Packet)

/-- What happens to the outgoing stream. -/
inductive Outflow
  | accepted (packet : Packet)
  | sent (transfer : Transfer)

namespace Outflow

/-- The requests that were accepted, in order. -/
def requests (flow : List Outflow) : List Packet :=
  flow.filterMap fun
    | .accepted packet => some packet
    | .sent _ => none

/-- What the socket took, in order. -/
def transfers (flow : List Outflow) : List Transfer :=
  flow.filterMap fun
    | .accepted _ => none
    | .sent transfer => some transfer

def sentBytes (flow : List Outflow) : Wire.Bytes := (transfers flow).flatMap (·.bytes.toList)

def sentFds (flow : List Outflow) : List Fd := (transfers flow).flatMap (·.fds)

end Outflow

open Outflow (requests transfers sentBytes sentFds)

/-- What a step shows of the outgoing stream. -/
def Step.flow (s : Step δ) : List Outflow :=
  (match s.action, s.report.refused with
    | .request o opcode args _ _, none => [.accepted (Message.encode o.id opcode args)]
    | _, _ => []) ++ s.report.transfers.map .sent

/-- An outbox follows the stream: accepted requests go in, and what the socket takes goes out.
    The socket is only asked while there are bytes. -/
inductive Flows : Outbox → List Outflow → Outbox → Prop
  | done {o : Outbox} : Flows o [] o
  | accepted {o o' : Outbox} {packet : Packet} {rest : List Outflow} :
    Flows (o.append packet) rest o' → Flows o (.accepted packet :: rest) o'
  | sent {o o' : Outbox} {rest : List Outflow} (room : Nat) :
    o.bytes ≠ #[] → Flows (o.drop room) rest o' → Flows o (.sent (o.transfer room) :: rest) o'

theorem Flows.trans {o o' o'' : Outbox} {f g : List Outflow} (first : Flows o f o')
    (second : Flows o' g o'') : Flows o (f ++ g) o'' := by
  induction first with
  | done => exact second
  | accepted _ ih => exact .accepted (ih second)
  | sent room some _ ih => exact .sent room some (ih second)

theorem Flows.split {o o'' : Outbox} {f g : List Outflow} (both : Flows o (f ++ g) o'') :
    ∃ o', Flows o f o' ∧ Flows o' g o'' := by
  induction f generalizing o with
  | nil => exact ⟨o, .done, both⟩
  | cons head f ih =>
    cases both with
    | accepted rest =>
      obtain ⟨o', first, second⟩ := ih rest
      exact ⟨o', .accepted first, second⟩
    | sent room some rest =>
      obtain ⟨o', first, second⟩ := ih rest
      exact ⟨o', .sent room some first, second⟩

/-! ## Steps and runs -/

theorem flush_flows (o : Outbox) (outcomes : List SendOutcome) :
    Flows o ((o.flush outcomes).transfers.map .sent) (o.flush outcomes).outbox := by
  induction outcomes generalizing o with
  | nil => exact .done
  | cons outcome outcomes ih =>
    unfold Outbox.flush
    split
    · exact .done
    next some =>
      cases outcome with
      | accepts room => exact .sent room (by simpa using some) (ih (o.drop room))
      | interrupted =>
        -- The socket is asked again; nothing has left.
        exact ih o
      | wouldBlock => exact .done
      | brokenPipe => exact .done
      | failed fault => exact .done

theorem Step.Effect.flows {s : Step δ} (effect : s.Effect) :
    Flows s.before.outbox s.flow s.after.outbox := by
  cases effect with
  | @refused c action => cases action <;> exact .done
  | request _ _ _ _ queued =>
    subst queued
    exact .accepted (flush_flows _ _)
  | flush => exact flush_flows _ _
  | @read c outcomes _ gate =>
    have kept := Connection.readRound_kept { c with gate } outcomes
    show Flows c.outbox [] _
    rw [kept.outbox]
    exact .done
  | close => exact flush_flows _ _
  | _ => exact .done

/-- What happened to the outgoing stream in a run of a new connection. -/
def outflow (protocol : Protocol) (actions : List (Action δ)) : List Outflow :=
  ((Connection.initial protocol).trace actions).flatMap Step.flow

theorem outflow_flows (protocol : Protocol) (actions : List (Action δ)) :
    Flows {} (outflow protocol actions) ((Connection.initial protocol).run actions).outbox := by
  refine Connection.trace_invariant (c := Connection.initial protocol)
    (I := fun past c => Flows {} past c.outbox) ?_ actions .done
  intro past c action flows
  exact flows.trans (c.step_effect action).flows

/-! ## Conservation -/

section

variable {o o' : Outbox} {f g : List Outflow} {packet : Packet} {transfer : Transfer}

@[simp] theorem requests_accepted : requests (.accepted packet :: f) = packet :: requests f := rfl

@[simp] theorem requests_sent : requests (.sent transfer :: f) = requests f := rfl

@[simp] theorem sentBytes_accepted : sentBytes (.accepted packet :: f) = sentBytes f := rfl

@[simp] theorem sentBytes_sent :
    sentBytes (.sent transfer :: f) = transfer.bytes.toList ++ sentBytes f := rfl

@[simp] theorem sentFds_accepted : sentFds (.accepted packet :: f) = sentFds f := rfl

@[simp] theorem sentFds_sent : sentFds (.sent transfer :: f) = transfer.fds ++ sentFds f := rfl

@[simp] theorem sentFds_append : sentFds (f ++ g) = sentFds f ++ sentFds g := by
  simp [sentFds, transfers]

theorem bytes_transfer_drop (o : Outbox) (room : Nat) :
    (o.transfer room).bytes.toList ++ (o.drop room).bytes.toList = o.bytes.toList := by
  have rest : (o.bytes.toList.drop room).take (o.bytes.size - room) = o.bytes.toList.drop room :=
    List.take_of_length_le (by simp)
  simp [Outbox.transfer, Outbox.drop, rest]

theorem fds_transfer_drop (o : Outbox) (room : Nat) :
    (o.transfer room).fds ++ (o.drop room).fds = o.fds :=
  List.take_append_drop _ _

/-- What was there and what was accepted is what was sent and what is left. -/
theorem Flows.conserved (flows : Flows o f o') :
    o.bytes.toList ++ (requests f).flatMap (·.bytes) = sentBytes f ++ o'.bytes.toList ∧
      o.fds ++ (requests f).flatMap (·.fds) = sentFds f ++ o'.fds := by
  induction flows with
  | done => simp [requests, sentBytes, sentFds, transfers]
  | accepted _ ih => simpa [Outbox.append] using ih
  | @sent o o' rest room _ _ ih =>
    obtain ⟨bytes, fds⟩ := ih
    rw [requests_sent, sentBytes_sent, sentFds_sent, List.append_assoc, List.append_assoc, ← bytes,
      ← fds, ← List.append_assoc, ← List.append_assoc, bytes_transfer_drop, fds_transfer_drop]
    exact ⟨rfl, rfl⟩

end

/-! ## When descriptors are late -/

/-- Whenever the last byte of a request has been sent, so have its descriptors. -/
def Timely (f : List Outflow) : Prop :=
  ∀ first, first <+: requests f → first.flatMap (·.bytes) <+: sentBytes f →
    first.flatMap (·.fds) <+: sentFds f

section

variable {o o' : Outbox} {past : List Outflow}

theorem flatMap_prefix {α β : Type} {a b : List α} {f : α → List β} (shorter : a <+: b) :
    a.flatMap f <+: b.flatMap f := by
  obtain ⟨rest, rfl⟩ := shorter
  rw [List.flatMap_append]
  exact List.prefix_append _ _

theorem timely_of_fds_nil (flows : Flows {} past o) (sent : o.fds = []) : Timely past := by
  intro first accepted _
  have all := flows.conserved.2
  rw [sent, List.append_nil] at all
  rw [← all]
  exact flatMap_prefix accepted

theorem fds_nil_of_timely (flows : Flows {} past o) (sent : o.bytes = #[]) (timely : Timely past) :
    o.fds = [] := by
  obtain ⟨bytes, fds⟩ := flows.conserved
  have complete : (requests past).flatMap (·.bytes) = sentBytes past := by
    simpa [sent] using bytes
  -- All requests are complete, so what is timely is all that was ever to be sent.
  have arrived := timely (requests past) List.prefix_rfl ⟨[], (List.append_nil _).trans complete⟩
  have bound := arrived.length_le
  have total := congrArg List.length fds
  rw [List.nil_append, List.length_append] at total
  exact List.eq_nil_of_length_eq_zero (by omega)

/-- A send is timely exactly if the descriptors that the requests completed by it still wait for
    fit into one send. -/
theorem timely_after_send (flows : Flows {} past o) (room : Nat) :
    Timely (past ++ [.sent (o.transfer room)]) ↔
      ∀ first, first <+: requests past →
        first.flatMap (·.bytes) <+: sentBytes (past ++ [.sent (o.transfer room)]) →
        (first.flatMap (·.fds)).length ≤ (sentFds past).length + Outbox.maxFds := by
  have all := flows.conserved.2
  rw [List.nil_append] at all
  -- What was sent by now and what each run of requests needs are parts of the same sequence.
  have sent : sentFds past ++ o.fds.take Outbox.maxFds <+: (requests past).flatMap (·.fds) := by
    rw [all]
    exact List.prefix_append_right_inj _ |>.2 (List.take_prefix _ _)
  have enough (first : List Packet) (accepted : first <+: requests past) :
      first.flatMap (·.fds) <+: sentFds past ++ o.fds.take Outbox.maxFds ↔
        (first.flatMap (·.fds)).length ≤ (sentFds past).length + Outbox.maxFds := by
    have needed : first.flatMap (·.fds) <+: (requests past).flatMap (·.fds) :=
      flatMap_prefix accepted
    have bound := needed.length_le
    rw [all, List.length_append] at bound
    constructor
    · intro arrived
      have shorter := arrived.length_le
      rw [List.length_append, List.length_take] at shorter
      omega
    · intro few
      apply List.prefix_of_prefix_length_le needed sent
      rw [List.length_append, List.length_take]
      omega
  have requested : requests (past ++ [.sent (o.transfer room)]) = requests past := by
    simp [requests]
  have carried : sentFds (past ++ [.sent (o.transfer room)]) =
      sentFds past ++ o.fds.take Outbox.maxFds := by
    rw [sentFds_append]
    simp [sentFds, transfers, Outbox.transfer]
  unfold Timely
  rw [requested, carried]
  constructor
  · intro timely first accepted complete
    exact (enough first accepted).1 (timely first accepted complete)
  · intro few first accepted complete
    exact (enough first accepted).2 (few first accepted complete)

/-! ## Flushes -/

theorem flush_of_empty (outcomes : List SendOutcome) (empty : o.bytes = #[]) :
    (o.flush outcomes).transfers = [] := by
  cases outcomes <;> simp [Outbox.flush, empty]

theorem bytes_nil_of_stop_none {outcomes : List SendOutcome}
    (finished : (o.flush outcomes).stop = none) : (o.flush outcomes).outbox.bytes = #[] := by
  induction outcomes generalizing o with
  | nil => simpa [Outbox.flush] using finished
  | cons outcome outcomes ih =>
    unfold Outbox.flush at finished ⊢
    split
    next empty => simpa using empty
    next some =>
      rw [if_neg some] at finished
      cases outcome with
      | accepts room => exact ih finished
      | interrupted => exact ih finished
      | wouldBlock => cases finished
      | brokenPipe => cases finished
      | failed fault => cases finished

/-- Each send takes as many descriptors as it may. -/
theorem fds_after_sends {sends : List Transfer} (flows : Flows o (sends.map .sent) o') :
    o'.fds = o.fds.drop (Outbox.maxFds * sends.length) := by
  induction sends generalizing o with
  | nil =>
    cases flows
    rfl
  | cons transfer sends ih =>
    cases flows with
    | sent room _ rest =>
      rw [ih rest, Outbox.drop, List.drop_drop, List.length_cons, Nat.mul_succ, Nat.add_comm]

theorem flows_of_sends {sends : List Transfer} {outcomes : List SendOutcome}
    (made : sends <+: (o.flush outcomes).transfers) : ∃ o', Flows o (sends.map .sent) o' := by
  obtain ⟨rest, split⟩ := made
  have flows := flush_flows o outcomes
  rw [← split, List.map_append] at flows
  obtain ⟨o', first, _⟩ := flows.split
  exact ⟨o', first⟩

/-- A flush is timely, whatever pieces the socket takes, exactly if the descriptors that wait fit
    into one send. -/
theorem timely_flush_iff (flows : Flows {} past o) :
    (∀ outcomes, (∀ room, .accepts room ∈ outcomes → 0 < room) →
      ∀ sends, sends <+: (o.flush outcomes).transfers → sends ≠ [] →
        Timely (past ++ sends.map .sent)) ↔
      o.bytes = #[] ∨ o.fds.length ≤ Outbox.maxFds := by
  constructor
  · intro timely
    by_cases empty : o.bytes = #[]
    · exact .inl empty
    · right
      -- The socket takes all bytes at once.
      have size : 0 < o.bytes.size := Array.size_pos_iff.2 empty
      have flushed : (o.flush [.accepts o.bytes.size]).transfers = [o.transfer o.bytes.size] := by
        simp [Outbox.flush, empty]
      have now := timely [.accepts o.bytes.size] (by simpa using size) [o.transfer o.bytes.size]
        (flushed ▸ List.prefix_rfl) (List.cons_ne_nil _ _)
      have after : Flows {} (past ++ [.sent (o.transfer o.bytes.size)]) (o.drop o.bytes.size) :=
        flows.trans (.sent _ empty .done)
      have rest := fds_nil_of_timely after (by simp [Outbox.drop]) now
      simpa [Outbox.drop] using rest
  · rintro enough outcomes _ sends made nonempty
    obtain ⟨o', sent⟩ := flows_of_sends made
    -- Already the first send takes all descriptors that wait.
    apply timely_of_fds_nil (flows.trans sent)
    rw [fds_after_sends sent]
    obtain empty | few := enough
    · rw [flush_of_empty outcomes empty] at made
      exact absurd (List.prefix_nil.1 made) nonempty
    · have one : 0 < sends.length := List.length_pos_iff.2 nonempty
      apply List.drop_of_length_le
      exact Nat.le_trans few (Nat.le_mul_of_pos_right _ one)

end

/-- When descriptors arrive in time.  After each send of every run, a request whose last byte has
    left waits for none of its descriptors exactly if, of the requests completed by then, at most
    `maxFds` descriptors were still to be sent.  At each point of a run, the next flush keeps this
    up, in whatever pieces the socket takes the bytes, exactly if at most `maxFds` descriptors
    wait.  And a flush that succeeds sends all bytes, but all descriptors only if they fit into the
    sends that it took. -/
theorem descriptors_timely_iff (protocol : Protocol) (actions : List (Action δ)) :
    let f := outflow protocol actions
    let c := (Connection.initial protocol).run actions
    (∀ past x future, f = past ++ .sent x :: future →
      (Timely (past ++ [.sent x]) ↔
        ∀ first, first <+: requests past →
          first.flatMap (·.bytes) <+: sentBytes (past ++ [.sent x]) →
          (first.flatMap (·.fds)).length ≤ (sentFds past).length + Outbox.maxFds)) ∧
    ((∀ outcomes, (∀ room, .accepts room ∈ outcomes → 0 < room) →
        ∀ sends, sends <+: (c.outbox.flush outcomes).transfers → sends ≠ [] →
          Timely (f ++ sends.map .sent)) ↔
      c.outbox.bytes = #[] ∨ c.outbox.fds.length ≤ Outbox.maxFds) ∧
    (∀ outcomes count sends c', (c.flush outcomes).value = (.ok count, sends, c') →
      c'.outbox.bytes = #[] ∧
        (c'.outbox.fds = [] ↔ c.outbox.fds.length ≤ Outbox.maxFds * sends.length)) := by
  intro f c
  have flows : Flows {} f c.outbox := outflow_flows protocol actions
  refine ⟨?_, timely_flush_iff flows, ?_⟩
  · intro past x future parts
    rw [parts] at flows
    obtain ⟨o, before, after⟩ := flows.split
    cases after with
    | sent room _ _ => exact timely_after_send before room
  · intro outcomes count sends c' flushed
    obtain ⟨cause, value⟩ | ⟨_, result, error, value, done⟩ := c.flush_value outcomes
    · rw [value] at flushed
      cases flushed
    · rw [value] at flushed
      cases flushed
      refine ⟨bytes_nil_of_stop_none (done.1 ⟨count, rfl⟩), ?_⟩
      rw [fds_after_sends (flush_flows c.outbox outcomes), List.drop_eq_nil_iff]

/-- An interface with a request that carries two descriptors and no bytes beyond its header. -/
def pairs : Interface where
  name := "pairs"
  version := 1
  requests := [⟨"pass", "hh", [none, none]⟩]
  events := []

/-- Fifteen pairs of descriptors wait to be sent. -/
def waitingPairs : List (Action Unit) :=
  .create ⟨displayId, 0, Protocol.Core.display, 1⟩ pairs 1 ::
    List.replicate 15 (.request ⟨2, 1, pairs, 1⟩ 0 [.fd ⟨1⟩, .fd ⟨2⟩] false [])

/-- The socket takes all of it at once: the flush succeeds with nothing left but two
    descriptors. -/
theorem descriptors_timely_iff_pairs :
    let c := (Connection.initial ⟨Protocol.Core.tables⟩).run waitingPairs
    let flushed := (c.flush [.accepts 4096]).value
    flushed.1.toOption = some 120 ∧ flushed.2.2.outbox.bytes = #[] ∧
      flushed.2.2.outbox.fds ≠ [] := by
  intro c flushed
  have succeeds : flushed.1.toOption = some 120 := by decide +kernel
  have waiting : c.outbox.fds.length = 30 := by decide +kernel
  have once : flushed.2.1.length = 1 := by decide +kernel
  obtain ⟨_, _, left⟩ := descriptors_timely_iff ⟨Protocol.Core.tables⟩ waitingPairs
  have done : flushed.1 = .ok 120 := by
    cases result : flushed.1 with
    | error cause => simp [result, Except.toOption] at succeeds
    | ok count => simpa [result, Except.toOption] using succeeds
  obtain ⟨bytes, fds⟩ := left [.accepts 4096] 120 flushed.2.1 flushed.2.2 (by rw [← done])
  refine ⟨succeeds, bytes, ?_⟩
  rw [Ne, fds]
  simp [waiting, once, c, Outbox.maxFds]

end Wayland.Client
