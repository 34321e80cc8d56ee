import Wayland.Proofs.Client.Stream

/-! # The messages of a read, one by one

A step that reads handles all complete messages in the inbox.  A `Handling` is one of them at the
moment when its turn comes, and `Step.handled` lists those of a step in the order of the stream.
Facts about what arrives are facts about one `Handling`; `absorbUpTo_invariant` carries them over
to a whole step.

Two things are kept apart here: where messages come from, which is what the socket answers
(`Step.answers`), and what messages do to the queues (`Handling.added?`).
-/

namespace Wayland.Client

variable {δ : Type}

/-! ## One message -/

/-- A message that stands at the front of the inbox. -/
structure Handling (δ : Type) where
  before : Connection δ
  header : Wire.Header
  body : Wire.Bytes
  /-- What follows it in the inbox. -/
  rest : Wire.Bytes
  front : Front.of before.inbox.bytes = .message header body rest

namespace Handling

def message (h : Handling δ) : Wire.Bytes := h.before.inbox.bytes.take h.header.size.toNat

/-- The fault that the message shows, if any, and the connection after it. -/
def outcome (h : Handling δ) : Option FatalError × Connection δ :=
  ((h.before.withBytes h.rest).handleMessage h.header h.body).value

def after (h : Handling δ) : Connection δ := h.outcome.2

/-- The descriptors that the message takes. -/
def descriptors (h : Handling δ) : List Fd :=
  h.before.inbox.fds.take (h.before.inbox.fds.length - h.after.inbox.fds.length)

/-- The event that the message adds to a queue: one of a live object, with arguments that could be
    read, and without a fault. -/
def added? (h : Handling δ) : Option (QueueId × QueuedEvent) :=
  if h.header.object = displayId ∨ h.outcome.1.isSome then none
  else do
    let sender ← h.before.objects.live? h.header.object
    let spec ← sender.interface.event? h.header.opcode
    let args ← (Message.demarshal spec h.body h.before.inbox.fds).1.toOption
    let queue := if h.before.queues.contains sender.queue then sender.queue else QueueId.default
    return (queue, { sender := h.header.object, generation := sender.generation
                     opcode := h.header.opcode, args })

theorem message_append_rest (h : Handling δ) : h.message ++ h.rest = h.before.inbox.bytes := by
  obtain ⟨_, _, _, _, _, rest⟩ := Front.of_message.1 h.front
  rw [message, rest, List.take_append_drop]

theorem handles (h : Handling δ) :
    (h.before.withBytes h.rest).Handles h.header h.body h.outcome.1 h.after :=
  Connection.handleMessage_handles _ _ _

theorem bytes_after (h : Handling δ) : h.after.inbox.bytes = h.rest := h.handles.bytes

theorem descriptors_append_after (h : Handling δ) :
    h.descriptors ++ h.after.inbox.fds = h.before.inbox.fds := by
  have left : h.after.inbox.fds <:+ h.before.inbox.fds := h.handles.fds
  exact List.suffix_iff_eq_append.1 left

theorem added?_some {h : Handling δ} {queue : QueueId} {event : QueuedEvent}
    (added : h.added? = some (queue, event)) :
    ∃ sender spec, h.before.objects.live? event.sender = some sender ∧
      sender.generation = event.generation ∧ sender.interface.event? event.opcode = some spec ∧
      queue = if h.before.queues.contains sender.queue then sender.queue else QueueId.default := by
  unfold added? at added
  split at added
  · cases added
  · simp only [Option.bind_eq_bind, Option.bind_eq_some_iff, Option.pure_def, Option.some.injEq,
      Prod.mk.injEq] at added
    obtain ⟨sender, live, spec, known, args, _, rfl, rfl⟩ := added
    exact ⟨sender, spec, live, rfl, known, rfl⟩

theorem queues_after (h : Handling δ) :
    h.after.queues = h.before.queues.pushAll h.added?.toList := by
  have handles := h.handles
  simp only [added?, after] at handles ⊢
  generalize h.outcome = outcome at handles ⊢
  obtain ⟨fault, c⟩ := outcome
  -- Only an event of a live object that shows no fault is queued.
  cases handles with
  | noDisplayEvent display | badDisplayEvent display | report display | deleteId display
  | ignored display => simp [display, EventQueues.pushAll, Connection.withFds, Connection.withBytes]
  | noEvent | badEvent | conflict =>
    simp [EventQueues.pushAll, Connection.withFds, Connection.withBytes]
  | unknown other absent =>
    have absent : h.before.objects.get? h.header.object = none := absent
    have gone : h.before.objects.live? h.header.object = none := by
      simp [ObjectTable.live?, absent]
    simp [gone, EventQueues.pushAll]
  | swallowed other found _ dead =>
    have found : h.before.objects.get? h.header.object = _ := found
    have gone : h.before.objects.live? h.header.object = none := by
      simp [ObjectTable.live?, found, dead]
    simp [gone, EventQueues.pushAll, Connection.withBytes]
  | queued other found known live read =>
    have found : h.before.objects.live? h.header.object = _ :=
      ObjectTable.live?_some.2 ⟨found, live⟩
    have read : Message.demarshal _ h.body h.before.inbox.fds = _ := read
    have clean : ¬ (h.header.object = displayId ∨ (none : Option FatalError).isSome) := by
      simp [other]
    rw [if_neg clean]
    simp only [found, known, read, Option.bind_eq_bind, Option.bind_some]
    rfl

end Handling

/-! ## All messages of an inbox -/

namespace Connection

/-- The messages that `absorbUpTo` handles, each at its moment. -/
def handlingsUpTo : Nat → Connection δ → List (Handling δ)
  | 0, _ => []
  | fuel + 1, c =>
    match front : Front.of c.inbox.bytes with
    | .incomplete => []
    | .malformed _ => []
    | .message header body rest =>
      let h : Handling δ := { before := c, header, body, rest, front }
      h :: match h.outcome.1 with
        | some _ => []
        | none => handlingsUpTo fuel h.after

def handlings (c : Connection δ) : List (Handling δ) := handlingsUpTo c.inbox.bytes.length c

theorem handlingsUpTo_of_message (h : Handling δ) (fuel : Nat) :
    handlingsUpTo (fuel + 1) h.before =
      h :: if h.outcome.1.isSome then [] else handlingsUpTo fuel h.after := by
  obtain ⟨c, header, body, rest, front⟩ := h
  rw [handlingsUpTo]
  split
  next absent => cases front.symm.trans absent
  next absent => cases front.symm.trans absent
  next found =>
    cases front.symm.trans found
    generalize (⟨c, header, body, rest, front⟩ : Handling δ) = h
    dsimp only
    cases h.outcome.1 with
    | none => rfl
    | some _ => rfl

theorem absorbUpTo_of_fault {h : Handling δ} {error : FatalError} (fault : h.outcome.1 = some error)
    (fuel : Nat) : (absorbUpTo (fuel + 1) h.before).value = (h.after.fail error).value := by
  simp only [Handling.outcome, withBytes] at fault
  simp only [absorbUpTo, h.front, Logged.value_bind, fault]
  rfl

theorem absorbUpTo_of_fine {h : Handling δ} (fine : h.outcome.1 = none) (fuel : Nat) :
    (absorbUpTo (fuel + 1) h.before).value = (absorbUpTo fuel h.after).value := by
  simp only [Handling.outcome, withBytes] at fine
  simp only [absorbUpTo, h.front, Logged.value_bind, fine]
  rfl

/-- What one turn of the loop does: there is no message to handle, or one is handled.  After a fault
    nothing more is handled. -/
theorem absorbUpTo_cases (fuel : Nat) (c : Connection δ) :
    (Front.of c.inbox.bytes = .incomplete ∧ handlingsUpTo (fuel + 1) c = [] ∧
      (absorbUpTo (fuel + 1) c).value = c) ∨
    (∃ header error, Front.of c.inbox.bytes = .malformed header ∧
      handlingsUpTo (fuel + 1) c = [] ∧ (absorbUpTo (fuel + 1) c).value = (c.fail error).value) ∨
    ∃ h : Handling δ, h.before = c ∧
      ((∃ error, h.outcome.1 = some error ∧ handlingsUpTo (fuel + 1) c = [h] ∧
        (absorbUpTo (fuel + 1) c).value = (h.after.fail error).value) ∨
      h.outcome.1 = none ∧ handlingsUpTo (fuel + 1) c = h :: handlingsUpTo fuel h.after ∧
        (absorbUpTo (fuel + 1) c).value = (absorbUpTo fuel h.after).value) := by
  cases front : Front.of c.inbox.bytes with
  | incomplete =>
    refine .inl ⟨rfl, ?_, ?_⟩
    · rw [handlingsUpTo]
      split <;> simp_all
    · simp only [absorbUpTo, front, Logged.value_pure]
  | malformed header =>
    refine .inr (.inl ⟨header, .malformed (.size header.object header.size.toNat), rfl, ?_, ?_⟩)
    · rw [handlingsUpTo]
      split <;> simp_all
    · simp only [absorbUpTo, front]
  | message header body rest =>
    let h : Handling δ := ⟨c, header, body, rest, front⟩
    have handled := handlingsUpTo_of_message h fuel
    refine .inr (.inr ⟨h, rfl, ?_⟩)
    cases outcome : h.outcome.1 with
    | some error =>
      rw [outcome] at handled
      exact .inl ⟨error, rfl, handled, absorbUpTo_of_fault outcome fuel⟩
    | none =>
      rw [outcome] at handled
      exact .inr ⟨rfl, handled, absorbUpTo_of_fine outcome fuel⟩

/-- What each message keeps, and every recorded error, holds when all messages are handled. -/
theorem absorbUpTo_invariant {I : List (Handling δ) → Connection δ → Prop}
    (handled : ∀ past (h : Handling δ), I past h.before → I (past ++ [h]) h.after)
    (failed : ∀ past c error, I past c → I past (c.fail error).value)
    (fuel : Nat) {past : List (Handling δ)} {c : Connection δ} (holds : I past c) :
    I (past ++ handlingsUpTo fuel c) (absorbUpTo fuel c).value := by
  induction fuel generalizing past c with
  | zero => simpa [handlingsUpTo, absorbUpTo] using holds
  | succ fuel ih =>
    obtain ⟨_, none, value⟩ | ⟨_, error, _, none, value⟩ |
        ⟨h, rfl, ⟨error, _, last, value⟩ | ⟨_, goesOn, value⟩⟩ := absorbUpTo_cases fuel c
    · rw [none, value, List.append_nil]
      exact holds
    · rw [none, value, List.append_nil]
      exact failed past c error holds
    · rw [last, value]
      exact failed _ _ error (handled past h holds)
    · rw [goesOn, value, List.append_cons]
      exact ih (handled past h holds)

theorem absorb_invariant {I : List (Handling δ) → Connection δ → Prop}
    (handled : ∀ past (h : Handling δ), I past h.before → I (past ++ [h]) h.after)
    (failed : ∀ past c error, I past c → I past (c.fail error).value)
    {c : Connection δ} (holds : I [] c) : I c.handlings c.absorb.value := by
  simpa [handlings, absorb] using absorbUpTo_invariant handled failed c.inbox.bytes.length holds

theorem queues_absorb (c : Connection δ) :
    c.absorb.value.queues = c.queues.pushAll (c.handlings.filterMap Handling.added?) := by
  refine absorb_invariant (I := fun past d =>
    d.queues = c.queues.pushAll (past.filterMap Handling.added?)) ?_ ?_ rfl
  · intro past h holds
    rw [h.queues_after, holds]
    cases added : h.added? <;> simp [EventQueues.pushAll, added]
  · intro past d error holds
    rw [fail_value, ← holds]

/-- No byte is lost or handled twice. -/
theorem bytes_absorb (c : Connection δ) :
    c.inbox.bytes = c.handlings.flatMap Handling.message ++ c.absorb.value.inbox.bytes := by
  refine absorb_invariant (I := fun past d =>
    c.inbox.bytes = past.flatMap Handling.message ++ d.inbox.bytes) ?_ ?_ rfl
  · intro past h holds
    simp [holds, h.bytes_after, h.message_append_rest]
  · intro past d error holds
    rw [fail_value]
    exact holds

/-- No descriptor is lost or taken twice. -/
theorem fds_absorb (c : Connection δ) :
    c.inbox.fds = c.handlings.flatMap Handling.descriptors ++ c.absorb.value.inbox.fds := by
  refine absorb_invariant (I := fun past d =>
    c.inbox.fds = past.flatMap Handling.descriptors ++ d.inbox.fds) ?_ ?_ rfl
  · intro past h holds
    simp [holds, h.descriptors_append_after]
  · intro past d error holds
    rw [fail_value]
    exact holds

/-! ## What the socket gives -/

/-- The connection with what the socket gives in its inbox.  If the socket fails, that is on
    record. -/
def filled (c : Connection δ) (outcomes : List ReadOutcome) : Connection δ :=
  { c with
    inbox := (c.inbox.gather 0 0 outcomes).inbox
    error :=
      match (c.inbox.gather 0 0 outcomes).fault with
      | some fault => some (FatalError.record c.error (.socket fault))
      | none => c.error }

theorem readSocket_filled (c : Connection δ) (outcomes : List ReadOutcome) :
    ∃ error, (c.readSocket outcomes).value.2.2 =
      { (c.filled outcomes).absorb.value with error } := by
  cases fault : (c.inbox.gather 0 0 outcomes).fault <;>
    cases hungUp : (c.inbox.gather 0 0 outcomes).hungUp <;>
    simp only [readSocket, filled, fault, hungUp, Logged.value_bind, Logged.value_pure, fail_value,
      Bool.false_eq_true, if_false, if_true]
  all_goals exact ⟨_, rfl⟩

theorem readRound_filled {c : Connection δ} (usable : c.check = .ok ())
    (outcomes : List ReadOutcome) :
    ∃ gate error, (c.readRound outcomes).value.2.2 =
      { (c.filled outcomes).absorb.value with gate, error } := by
  obtain ⟨error, value⟩ := readSocket_filled c outcomes
  rw [readRound_of_ok usable, value]
  exact ⟨_, error, rfl⟩

end Connection

/-! ## Steps -/

namespace Step

def handled (s : Step δ) : List (Handling δ) :=
  match s.action, s.before.gate.withdraw, s.before.check with
  | .read outcomes, (.last, gate), .ok () => ({ s.before with gate }.filled outcomes).handlings
  | _, _, _ => []

/-- The answers that a step takes from the socket. -/
def answers (s : Step δ) : List ReadOutcome :=
  match s.action, s.before.gate.withdraw, s.before.check with
  | .read outcomes, (.last, _), .ok () => ReadOutcome.taken 0 outcomes
  | _, _, _ => []

/-- A step that does not read, one that only leaves the round, or one in which everything that has
    arrived is handled. -/
theorem Effect.arrival_cases {s : Step δ} (effect : s.Effect) :
    s.handled = [] ∧ s.answers = [] ∧ s.after.inbox = s.before.inbox ∧
      (∀ outcomes, s.action ≠ .read outcomes) ∨
    s.handled = [] ∧ s.answers = [] ∧ (∃ gate, s.after = { s.before with gate }) ∨
    ∃ outcomes gate gate' error, s.before.check = .ok () ∧
      s.handled = ({ s.before with gate }.filled outcomes).handlings ∧
      s.answers = ReadOutcome.taken 0 outcomes ∧
      s.after =
        { ({ s.before with gate }.filled outcomes).absorb.value with gate := gate', error } := by
  cases effect with
  | @refused c action cause notes noRead =>
    left
    cases action with
    | read outcomes => exact absurd rfl (noRead outcomes)
    | _ => exact ⟨rfl, rfl, rfl, noRead⟩
  | withdraw more =>
    right
    left
    refine ⟨?_, ?_, ⟨_, rfl⟩⟩
    · simp only [handled]
      split
      next last _ => exact absurd last (more _)
      · rfl
    · simp only [answers]
      split
      next last _ => exact absurd last (more _)
      · rfl
  | @read c outcomes _ gate last =>
    right
    cases usable : c.check with
    | error cause =>
      left
      have failed : { c with gate }.check = .error cause := usable
      rw [Connection.readRound_of_error failed]
      exact ⟨by simp only [handled, last, usable], by simp only [answers, last, usable], _, rfl⟩
    | ok _ =>
      right
      have checked : { c with gate }.check = .ok () := usable
      obtain ⟨gate', error, value⟩ := Connection.readRound_filled checked outcomes
      refine ⟨outcomes, gate, gate', error, rfl, ?_, ?_, value⟩
      · simp only [handled, last, usable]
      · simp only [answers, last, usable]
  | _ => exact .inl ⟨rfl, rfl, rfl, nofun⟩

variable {s : Step δ}

/-- The bytes and descriptors that a step takes from the socket go to the messages that it handles,
    or they wait in the inbox. -/
theorem Effect.arrivals (effect : s.Effect) :
    s.before.inbox.bytes ++ s.answers.flatMap ReadOutcome.bytes =
        s.handled.flatMap Handling.message ++ s.after.inbox.bytes ∧
      s.before.inbox.fds ++ s.answers.flatMap ReadOutcome.fds =
        s.handled.flatMap Handling.descriptors ++ s.after.inbox.fds := by
  obtain ⟨nothing, silent, same, _⟩ | ⟨nothing, silent, _, after⟩ |
      ⟨outcomes, gate, gate', error, _, handled, answers, after⟩ := effect.arrival_cases
  · simp [nothing, silent, same]
  · simp [nothing, silent, after]
  · obtain ⟨bytes, fds, _⟩ := s.before.inbox.gather_eq 0 0 outcomes
    rw [handled, answers, after, ← bytes, ← fds]
    exact ⟨({ s.before with gate }.filled outcomes).bytes_absorb,
      ({ s.before with gate }.filled outcomes).fds_absorb⟩

/-- A step that reads adds the events of the messages that it handles to the queues. -/
theorem Effect.queues_of_read {outcomes : List ReadOutcome} (effect : s.Effect)
    (reads : s.action = .read outcomes) :
    s.after.queues = s.before.queues.pushAll (s.handled.filterMap Handling.added?) := by
  obtain ⟨_, _, _, noRead⟩ | ⟨nothing, _, _, after⟩ |
      ⟨outcomes, gate, gate', error, _, handled, _, after⟩ := effect.arrival_cases
  · exact absurd reads (noRead outcomes)
  · rw [nothing, after]
    rfl
  · rw [handled, after]
    exact Connection.queues_absorb _

end Step

namespace Connection

/-- What relates a connection to the steps of its past holds at the end of every run, if each step
    keeps it. -/
theorem history_invariant {I : List (Step δ) → Connection δ → Prop}
    (keeps : ∀ past c action, I past c → I (past ++ [c.step action]) (c.step action).after)
    (actions : List (Action δ)) {c : Connection δ} (start : I [] c) :
    I (c.trace actions) (c.run actions) := by
  simpa using @trace_invariant δ (Step δ) (fun s => [s]) I keeps actions [] c start

/-- At the end of every run, the bytes of what the socket has answered are those of the messages
    that were handled, one behind the other, and those that wait in the inbox; and the descriptors
    are those that messages have taken, and those that wait. -/
theorem answered_eq_handled (protocol : Protocol) (actions : List (Action δ)) :
    let steps := (initial protocol : Connection δ).trace actions
    let inbox := ((initial protocol : Connection δ).run actions).inbox
    (steps.flatMap Step.answers).flatMap ReadOutcome.bytes =
        (steps.flatMap Step.handled).flatMap Handling.message ++ inbox.bytes ∧
      (steps.flatMap Step.answers).flatMap ReadOutcome.fds =
        (steps.flatMap Step.handled).flatMap Handling.descriptors ++ inbox.fds := by
  refine history_invariant (I := fun past c =>
    (past.flatMap Step.answers).flatMap ReadOutcome.bytes =
        (past.flatMap Step.handled).flatMap Handling.message ++ c.inbox.bytes ∧
      (past.flatMap Step.answers).flatMap ReadOutcome.fds =
        (past.flatMap Step.handled).flatMap Handling.descriptors ++ c.inbox.fds)
    ?_ actions ⟨rfl, rfl⟩
  intro past c action holds
  obtain ⟨bytes, fds⟩ := (c.step_effect action).arrivals
  have before : (c.step action).before = c := rfl
  rw [before] at bytes fds
  simp only [List.flatMap_append, List.flatMap_singleton, holds.1, holds.2, List.append_assoc,
    bytes, fds, and_self]

/-- The answers that a step takes are the first ones, as many as the reader counts. -/
theorem answers_of_read (c : Connection δ) (outcomes : List ReadOutcome) :
    (c.step (.read outcomes)).answers = outcomes.take (c.readEvents outcomes).value.2.1 := by
  unfold Step.answers readEvents
  dsimp only [step]
  cases withdrawn : c.gate.withdraw with
  | mk withdrawal gate =>
    cases withdrawal with
    | last =>
      cases usable : c.check with
      | error cause =>
        have unusable : { c with gate }.check = .error cause := usable
        simp [readRound_of_error unusable]
      | ok _ =>
        have checked : { c with gate }.check = .ok () := usable
        obtain ⟨_, _, _, _, value⟩ := readSocket_value { c with gate } outcomes
        obtain ⟨_, _, _, used⟩ := c.inbox.gather_eq 0 0 outcomes
        have first := List.prefix_iff_eq_take.1 (ReadOutcome.taken_prefix 0 outcomes)
        simp only [Logged.value_bind, Logged.value_pure, readRound_of_ok checked, value, used,
          Nat.zero_add]
        exact first
    | wait | unpaired => simp

end Connection

end Wayland.Client
