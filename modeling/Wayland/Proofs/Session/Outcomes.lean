import Wayland.Proofs.Client.Run
import Wayland.Session.Run

/-! # What computations on a session come to

The lemmas about `State.outcome` take computations apart, one operation at a time, so that proofs
about what an application does never unfold the monads.
-/

namespace Wayland.Client

@[simp] theorem Logged.pure_bind {α β : Type} (a : α) (f : α → Logged β) :
    (pure a >>= f) = f a := by
  simp only [bind, pure, List.nil_append]

end Wayland.Client

namespace Wayland.Session

open Client (Connection Logged Note ClientError displayId)

/-- The proxy of the display in sessions with one connection. -/
def displayProxy : Proxy :=
  { handle := some ⟨0, ⟨displayId, 0, Protocol.Core.display, 1⟩⟩, owning := false }

variable {α β : Type} {s s' : State} {m : StepM α} {cause : StepError}

/-- The result of a computation in a session, and the session after it. -/
def State.outcome (s : State) (m : StepM α) : Except StepError α × State := m.run.run s

/-! ## Sequences -/

@[simp] theorem outcome_pure (a : α) : s.outcome (pure a) = (.ok a, s) := rfl

@[simp] theorem outcome_throw (cause : StepError) :
    s.outcome (throw cause : StepM α) = (.error cause, s) := rfl

@[simp] theorem outcome_get : s.outcome (get : StepM State) = (.ok s, s) := rfl

@[simp] theorem outcome_lift (m : SessionM α) :
    s.outcome (monadLift m : StepM α) = (.ok (m.run s).1, (m.run s).2) := rfl

theorem outcome_bind (m : StepM α) (f : α → StepM β) :
    s.outcome (m >>= f) =
      match s.outcome m with
      | (.ok a, s) => s.outcome (f a)
      | (.error cause, s) => (.error cause, s) := by
  unfold State.outcome ExceptT.run StateT.run
  simp only [bind, ExceptT.bind, ExceptT.mk, StateT.bind]
  cases m s with
  | mk result s' => cases result <;> rfl

theorem outcome_bind_ok {f : α → StepM β} {a : α} (done : s.outcome m = (.ok a, s')) :
    s.outcome (m >>= f) = s'.outcome (f a) := by
  rw [outcome_bind, done]

theorem outcome_bind_error {f : α → StepM β} (failed : s.outcome m = (.error cause, s')) :
    s.outcome (m >>= f) = (.error cause, s') := by
  rw [outcome_bind, failed]

/-- A sequence that succeeds succeeds twice. -/
theorem of_outcome_bind {f : α → StepM β} {b : β} (done : s.outcome (m >>= f) = (.ok b, s')) :
    ∃ a t, s.outcome m = (.ok a, t) ∧ t.outcome (f a) = (.ok b, s') := by
  rw [outcome_bind] at done
  cases first : s.outcome m with
  | mk result t =>
    rw [first] at done
    cases result with
    | ok a => exact ⟨a, t, rfl, done⟩
    | error cause => cases done

theorem outcome_tryCatch (m : StepM α) (handler : StepError → StepM α) :
    s.outcome (tryCatch m handler) =
      match s.outcome m with
      | (.ok a, s) => (.ok a, s)
      | (.error cause, s) => s.outcome (handler cause) := by
  unfold State.outcome ExceptT.run StateT.run
  simp only [tryCatch, tryCatchThe, MonadExceptOf.tryCatch, ExceptT.tryCatch, ExceptT.mk, bind,
    StateT.bind]
  cases m s with
  | mk result s' => cases result <;> rfl

theorem outcome_observing (m : StepM α) :
    s.outcome (observing m) = (.ok (s.outcome m).1, (s.outcome m).2) := by
  unfold observing
  rw [outcome_tryCatch, outcome_bind]
  cases s.outcome m with
  | mk result s' => cases result <;> rfl

theorem of_outcome_observing {result : Except StepError α}
    (done : s.outcome (observing m) = (.ok result, s')) : s.outcome m = (result, s') := by
  rw [outcome_observing] at done
  obtain ⟨rfl, rfl⟩ : (s.outcome m).1 = result ∧ (s.outcome m).2 = s' := by simpa using done
  rfl

theorem run_bind (m : SessionM α) (f : α → SessionM β) :
    (m >>= f).run s = (f (m.run s).1).run (m.run s).2 := rfl

theorem run_outcome (m : StepM α) :
    (m.run : SessionM (Except StepError α)).run s = s.outcome m := rfl

/-! ## Connections -/

/-- The session once a connection and its socket have changed and notes have been made. -/
def State.putChannel (s : State) (connection : ConnectionRef) (channel : Channel)
    (notes : List Note) : State :=
  { s with
    channels := s.channels.set connection channel
    frame := { s.frame with notes := s.frame.notes ++ notes } }

@[simp] theorem putChannel_same (s : State) (connection : ConnectionRef) :
    s.putChannel connection (s.channel connection) [] = s := by
  have same : s.channels.set connection (s.channel connection) = s.channels := by
    by_cases known : connection < s.channels.length
    · simp [State.channel, List.getD_eq_getElem?_getD, known]
    · exact List.set_eq_of_length_le (Nat.not_lt.1 known)
  simp [State.putChannel, same]

theorem onChannel_run (connection : ConnectionRef) (f : Channel → Logged (α × Channel)) :
    (onChannel connection f).run s =
      ((f (s.channel connection)).value.1,
        s.putChannel connection (f (s.channel connection)).value.2
          (f (s.channel connection)).notes) := rfl

theorem onConnection_run (connection : ConnectionRef)
    (f : Connection ObjectData → Logged (α × Connection ObjectData)) :
    (onConnection connection f).run s =
      let result := f (s.channel connection).connection
      (result.value.1,
        s.putChannel connection { s.channel connection with connection := result.value.2 }
          result.notes) := by
  unfold onConnection
  rw [onChannel_run]
  simp

@[simp] theorem mapError_ok (f : ClientError → StepError) (a : α) :
    Except.mapError f (.ok a) = .ok a := rfl

@[simp] theorem mapError_error (f : ClientError → StepError) (cause : ClientError) :
    Except.mapError f (.error cause : Except ClientError α) = .error (f cause) := rfl

theorem outcome_tryChannel (connection : ConnectionRef)
    (f : Channel → Logged (Except ClientError α × Channel)) :
    s.outcome (tryChannel connection f) =
      ((f (s.channel connection)).value.1.mapError .client,
        s.putChannel connection (f (s.channel connection)).value.2
          (f (s.channel connection)).notes) := by
  unfold tryChannel
  rw [outcome_bind, outcome_lift, onChannel_run]
  dsimp only
  cases (f (s.channel connection)).value.1 <;> rfl

/-- An operation that fails leaves the connection as it is. -/
theorem outcome_tryConnection (connection : ConnectionRef)
    (f : Connection ObjectData → Logged (Except ClientError (α × Connection ObjectData))) :
    s.outcome (tryConnection connection f) =
      let result := f (s.channel connection).connection
      match result.value with
      | .ok (a, c) =>
        (.ok a, s.putChannel connection { s.channel connection with connection := c } result.notes)
      | .error cause =>
        (.error (.client cause), s.putChannel connection (s.channel connection) result.notes) := by
  unfold tryConnection
  rw [outcome_tryChannel]
  simp only [Logged.value_bind, Logged.notes_bind]
  cases (f (s.channel connection).connection).value <;> simp

theorem tryChannel_ok {connection : ConnectionRef}
    {f : Channel → Logged (Except ClientError α × Channel)} {a : α}
    (done : s.outcome (tryChannel connection f) = (.ok a, s')) :
    (f (s.channel connection)).value.1 = .ok a ∧
      s' = s.putChannel connection (f (s.channel connection)).value.2
        (f (s.channel connection)).notes := by
  rw [outcome_tryChannel] at done
  obtain ⟨result, rfl⟩ := Prod.mk.inj done
  cases value : (f (s.channel connection)).value.1 with
  | ok b =>
    rw [value] at result
    cases result
    exact ⟨rfl, rfl⟩
  | error cause =>
    rw [value] at result
    cases result

theorem tryConnection_ok {connection : ConnectionRef}
    {f : Connection ObjectData → Logged (Except ClientError (α × Connection ObjectData))} {a : α}
    (done : s.outcome (tryConnection connection f) = (.ok a, s')) :
    ∃ c, (f (s.channel connection).connection).value = .ok (a, c) ∧
      s' = s.putChannel connection { s.channel connection with connection := c }
        (f (s.channel connection).connection).notes := by
  rw [outcome_tryConnection] at done
  dsimp only at done
  cases value : (f (s.channel connection).connection).value with
  | ok result =>
    rw [value] at done
    cases done
    exact ⟨_, rfl, rfl⟩
  | error cause =>
    rw [value] at done
    cases done

theorem outcome_live (p : Proxy) :
    s.outcome p.live =
      match p.handle with
      | none => (.error (.client .invalidProxy), s)
      | some h =>
        if s.keeps h.connection then (.ok h, s) else (.error (.client .disconnected), s) := by
  unfold Proxy.live
  cases p.handle with
  | none => rfl
  | some h =>
    dsimp only
    rw [outcome_bind, outcome_get]
    dsimp only
    split <;> rfl

theorem live_cases (s : State) (p : Proxy) :
    (∃ cause, s.outcome p.live = (.error cause, s)) ∧
        (p.handle.filter fun h => s.keeps h.connection) = none ∨
      ∃ h, p.handle = some h ∧ s.keeps h.connection = true ∧ s.outcome p.live = (.ok h, s) := by
  rw [outcome_live]
  cases p.handle with
  | none => exact .inl ⟨⟨_, rfl⟩, rfl⟩
  | some h =>
    dsimp only
    split
    next kept => exact .inr ⟨h, rfl, kept, rfl⟩
    next gone => exact .inl ⟨⟨_, rfl⟩, by simpa using gone⟩

theorem live_ok {p : Proxy} {h : Handle} (done : s.outcome p.live = (.ok h, s')) :
    p.handle = some h ∧ s.keeps h.connection = true ∧ s = s' := by
  obtain ⟨⟨_, failed⟩, _⟩ | ⟨h', held, kept, live⟩ := live_cases s p
  · rw [failed] at done
    cases done
  · rw [live] at done
    cases done
    exact ⟨held, kept, rfl⟩

/-! ## What goes away -/

theorem destroy_run {p : Proxy} {h : Handle} (held : p.handle = some h) :
    p.destroy.run s = ({ p with handle := none },
      if p.owning && s.keeps h.connection then
        ((onConnection h.connection fun c => do return ((), ← c.releaseObject h.object)).run s).2
      else s) := by
  unfold Proxy.destroy
  rw [held]
  dsimp only
  rw [run_bind]
  change (if p.owning && s.keeps h.connection then _ else _ : SessionM Proxy).run s = _
  split <;> rfl

/-- Only an owner whose connection is alive has something to release. -/
theorem destroy_cases (s : State) (p : Proxy) :
    (∀ h, p.handle = some h → p.owning = true → s.keeps h.connection = false) ∧
        p.destroy.run s = ({ p with handle := none }, s) ∨
      ∃ h notes, p.handle = some h ∧ p.owning = true ∧ s.keeps h.connection = true ∧
        p.destroy.run s = ({ p with handle := none },
          s.putChannel h.connection
            { s.channel h.connection with
              connection :=
                ((s.channel h.connection).connection.step (.release h.object)).after } notes) := by
  cases held : p.handle with
  | none =>
    unfold Proxy.destroy
    rw [held]
    exact .inl ⟨nofun, rfl⟩
  | some h =>
    rw [destroy_run held]
    by_cases acts : (p.owning && s.keeps h.connection) = true
    · obtain ⟨owning, kept⟩ := Bool.and_eq_true_iff.1 acts
      rw [if_pos acts, onConnection_run]
      exact .inr ⟨h, _, rfl, owning, kept, rfl⟩
    · rw [if_neg acts]
      refine .inl ⟨?_, rfl⟩
      rintro _ ⟨⟩ owning
      simpa [owning] using acts

theorem destroy_handle (s : State) (p : Proxy) : (p.destroy.run s).1.handle = none := by
  obtain ⟨_, ran⟩ | ⟨_, _, _, _, _, ran⟩ := destroy_cases s p <;> rw [ran]

theorem display_destroy_run {d : Display} {connection : ConnectionRef}
    (known : d.connection = some connection) :
    d.destroy.run s =
      ({ connection := none, proxy := { d.proxy with handle := none } },
        s.putChannel connection (s.channel connection).close.value.2
          (s.channel connection).close.notes) := by
  unfold Display.destroy
  rw [known]
  rfl

theorem display_destroy_again {d : Display} (destroyed : d.connection = none) :
    d.destroy.run s =
      ({ connection := none, proxy := { d.proxy with handle := none } }, s) := by
  unfold Display.destroy
  rw [destroyed]
  rfl

end Wayland.Session
