import Wayland.Proofs.Client.EventOrder

/-! # The error on record

The first error stays on record, unless the compositor reports one itself.  Within a read, errors
may come one after the other: the socket fails, the messages that had arrived before are still
handled, and among them may be a report of the compositor.  Between steps nothing changes: once a
step has ended with an error on record, nothing is read any more, and no other step has an error to
add (`run_error`).
-/

namespace Wayland.Client

variable {δ : Type}

/-- What is on record stays, except that a report of the compositor may take the place of anything
    else. -/
def FatalError.Stays (old new : Option FatalError) : Prop :=
  ∀ e, old = some e →
    ∃ e', new = some e' ∧ (e' = e ∨ e.isProtocol = false ∧ e'.isProtocol = true)

namespace FatalError

variable {old new later : Option FatalError}

theorem Stays.refl : Stays old old := fun e recorded => ⟨e, recorded, .inl rfl⟩

theorem Stays.trans (first : Stays old new) (second : Stays new later) : Stays old later := by
  intro e recorded
  obtain ⟨e', recorded', rfl | ⟨replaceable, reported⟩⟩ := first e recorded
  · exact second e' recorded'
  · obtain ⟨e'', recorded'', rfl | ⟨replaceable', _⟩⟩ := second e' recorded'
    · exact ⟨e'', recorded'', .inr ⟨replaceable, reported⟩⟩
    · rw [reported] at replaceable'
      cases replaceable'

theorem stays_record (old : Option FatalError) (error : FatalError) :
    Stays old (some (record old error)) := by
  rintro e rfl
  unfold record
  dsimp only
  split
  next reported =>
    simp only [Bool.and_eq_true, Bool.not_eq_true'] at reported
    exact ⟨error, rfl, .inr reported⟩
  · exact ⟨e, rfl, .inl rfl⟩

/-- Of an error that is on record, nothing that happens to the socket takes the place. -/
theorem record_socket (e : FatalError) (fault : SocketFault) :
    record (some e) (.socket fault) = e := by
  simp [record, isProtocol]

end FatalError

open FatalError (Stays)

/-! ## Within a read -/

namespace Connection

theorem stays_fail (c : Connection δ) (error : FatalError) :
    Stays c.error (c.fail error).value.error := by
  rw [fail_error]
  exact FatalError.stays_record _ _

theorem Handles.stays {c c' : Connection δ} {header : Wire.Header} {body : Wire.Bytes}
    {fault : Option FatalError} (handles : Handles c header body fault c') :
    Stays c.error c'.error := by
  obtain same | ⟨_, recorded⟩ := handles.error
  · rw [same]
    exact .refl
  · rw [recorded]
    exact FatalError.stays_record _ _

/-- What is on record before any message, and what a message leaves on record, stays until all are
    handled. -/
theorem handlings_stay (c : Connection δ) :
    Stays c.error c.absorb.value.error ∧
      (c.handlings.Pairwise fun h later => Stays h.after.error later.before.error) ∧
      ∀ h ∈ c.handlings,
        Stays c.error h.before.error ∧ Stays h.after.error c.absorb.value.error := by
  refine absorb_invariant (I := fun past d => Stays c.error d.error ∧
    (past.Pairwise fun h later => Stays h.after.error later.before.error) ∧
      ∀ h ∈ past, Stays c.error h.before.error ∧ Stays h.after.error d.error) ?_ ?_
    ⟨.refl, .nil, by simp⟩
  · rintro past h ⟨first, ordered, stays⟩
    refine ⟨first.trans h.handles.stays,
      List.pairwise_append.2 ⟨ordered, List.pairwise_singleton _ _, ?_⟩, ?_⟩
    · intro earlier mem later same
      rw [List.mem_singleton.1 same]
      exact (stays earlier mem).2
    · intro h' mem
      obtain old | rfl : h' ∈ past ∨ h' = h := by simpa using mem
      · exact ⟨(stays h' old).1, (stays h' old).2.trans h.handles.stays⟩
      · exact ⟨first, .refl⟩
  · rintro past d error ⟨first, ordered, stays⟩
    exact ⟨first.trans (stays_fail d error), ordered,
      fun h mem => ⟨(stays h mem).1, (stays h mem).2.trans (stays_fail d error)⟩⟩

/-- The end of the stream is recorded last. -/
theorem readSocket_error (c : Connection δ) (outcomes : List ReadOutcome) :
    (c.readSocket outcomes).value.2.2.error =
      if (c.inbox.gather 0 0 outcomes).hungUp then
        some (FatalError.record (c.filled outcomes).absorb.value.error .disconnected)
      else (c.filled outcomes).absorb.value.error := by
  cases fault : (c.inbox.gather 0 0 outcomes).fault <;>
    cases hungUp : (c.inbox.gather 0 0 outcomes).hungUp <;>
    simp only [readSocket, filled, fault, hungUp, Logged.value_bind, Logged.value_pure, fail_value,
      Bool.false_eq_true, if_false, if_true]

theorem stays_readRound {c : Connection δ} (usable : c.check = .ok ())
    (outcomes : List ReadOutcome) :
    Stays (c.filled outcomes).absorb.value.error (c.readRound outcomes).value.2.2.error := by
  have error : (c.readRound outcomes).value.2.2.error =
      (c.readSocket outcomes).value.2.2.error := by
    rw [readRound_of_ok usable]
  rw [error, readSocket_error]
  split
  · exact FatalError.stays_record _ _
  · exact .refl

end Connection

/-- What is on record when a step begins its work: if it reads, the socket has been asked by then,
    and may have failed. -/
def Step.outset (s : Step δ) : Option FatalError :=
  match s.action, s.before.gate.withdraw, s.before.check with
  | .read outcomes, (.last, gate), .ok () => ({ s.before with gate }.filled outcomes).error
  | _, _, _ => s.before.error

/-- Within a step, what is on record at the outset stays, and so does what a message leaves. -/
theorem Step.Effect.handled_stay {s : Step δ} (effect : s.Effect) :
    (s.outset = s.before.error ∨ Stays s.outset s.after.error) ∧
      (s.handled.Pairwise fun h later => Stays h.after.error later.before.error) ∧
      ∀ h ∈ s.handled, Stays s.outset h.before.error ∧ Stays h.before.error h.after.error ∧
        Stays h.after.error s.after.error := by
  cases effect with
  | @refused c action cause notes noRead =>
    cases action with
    | read outcomes => exact absurd rfl (noRead outcomes)
    | _ => simp [handled, outset]
  | @read c outcomes _ gate last =>
    cases usable : c.check with
    | error cause => simp [handled, outset, last, usable]
    | ok _ =>
      have checked : { c with gate }.check = .ok () := usable
      obtain ⟨first, ordered, stays⟩ := ({ c with gate }.filled outcomes).handlings_stay
      have ending := Connection.stays_readRound checked outcomes
      simp only [handled, outset, last, usable]
      exact ⟨.inr (first.trans ending), ordered, fun h mem =>
        ⟨(stays h mem).1, h.handles.stays, (stays h mem).2.trans ending⟩⟩
  | withdraw more =>
    simp only [handled, outset]
    split
    next last _ => exact absurd last (more _)
    · simp
  | _ => simp [handled, outset]

/-! ## From step to step -/

namespace Connection

theorem check_of_error {c : Connection δ} {e : FatalError} (isOpen : c.closed = false)
    (recorded : c.error = some e) : c.check = .error (.fatal e) := by
  simp [check, isOpen, recorded]

theorem flushOutbox_error {c : Connection δ} {e : FatalError} (recorded : c.error = some e)
    (outcomes : List SendOutcome) : (c.flushOutbox outcomes).value.2.2.error = some e := by
  unfold flushOutbox
  dsimp only
  split
  · exact recorded
  · exact recorded
  · exact recorded
  next fault _ =>
    rw [Logged.value_bind, Logged.value_pure]
    dsimp only
    rw [fail_error, recorded, FatalError.record_socket]

theorem close_error {c : Connection δ} {e : FatalError} (recorded : c.error = some e)
    (outcomes : List SendOutcome) : (c.close outcomes).value.2.error = some e := by
  have flushed := flushOutbox_error recorded outcomes
  unfold close
  split
  · exact recorded
  · rw [Logged.value_bind]
    dsimp only
    split <;> exact flushed

end Connection

/-- Whatever checks the connection is refused, and nothing else but closing has to do with the
    socket. -/
theorem Step.Effect.error_of_error {s : Step δ} {e : FatalError} (effect : s.Effect)
    (recorded : s.before.error = some e) (stays : ∀ outcomes, s.action ≠ .close outcomes) :
    s.after.error = some e := by
  have unusable {P : Prop} (usable : s.before.check = .ok ()) : P := by
    unfold Connection.check at usable
    rw [recorded] at usable
    split at usable <;> cases usable
  cases effect with
  | create usable | adopt usable | request usable | flush usable | attach usable
  | attachAgain usable | setQueue usable | createQueue usable | prepareRead usable
  | next usable => exact unusable usable
  | @read c outcomes _ gate =>
    cases usable : c.check with
    | ok _ => exact unusable usable
    | error cause =>
      have failed : { c with gate }.check = .error cause := usable
      rw [Connection.readRound_of_error failed]
      exact recorded
  | close => exact absurd rfl (stays _)
  | _ => exact recorded

namespace Connection

/-- An error that is on record when a step begins is there when it ends. -/
theorem step_error {c : Connection δ} {e : FatalError} (recorded : c.error = some e)
    (action : Action δ) : (c.step action).after.error = some e := by
  by_cases closing : ∃ outcomes, action = .close outcomes
  · obtain ⟨outcomes, rfl⟩ := closing
    exact close_error recorded outcomes
  · refine (c.step_effect action).error_of_error recorded ?_
    intro outcomes closes
    exact closing ⟨outcomes, closes⟩

theorem run_error {c : Connection δ} {e : FatalError} (recorded : c.error = some e)
    (actions : List (Action δ)) : (c.run actions).error = some e :=
  @trace_invariant δ Unit (fun _ => []) (fun _ d => d.error = some e)
    (fun _ _ action recorded => step_error recorded action) actions [] c recorded

/-- What is on record at the outset of a step stays until its end. -/
theorem outset_stays (c : Connection δ) (action : Action δ) :
    Stays (c.step action).outset (c.step action).after.error := by
  obtain same | stays := (c.step_effect action).handled_stay.1
  · rw [same]
    intro e recorded
    exact ⟨e, step_error recorded action, .inl rfl⟩
  · exact stays

end Connection

end Wayland.Client
