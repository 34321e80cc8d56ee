import Wayland.Proofs.Client.EventOrder

/-! # Queues that exist

A live object names a queue by its number.  Queues go at any time, and then the objects of a queue
move to the default queue; so the number that an object names is always that of a queue.  A number
that has been in use is never given to another queue, so whoever remembers it never finds a queue
that is not the one meant.

A message that arrives for a live object is therefore never put into another queue than the one of
its object, and never lost for want of a queue.
-/

namespace Wayland.Client

variable {δ : Type}

/-- The number of the queue that a step creates. -/
def Step.newQueue? (s : Step δ) : Option QueueId :=
  match s.action with
  | .createQueue => s.before.createQueue.value.toOption.map Prod.fst
  | _ => none

/-- The numbers of the queues that were created, in order. -/
def newQueues (steps : List (Step δ)) : List QueueId := steps.filterMap Step.newQueue?

/-! ## A closed connection -/

/-- Closing forgets all objects, and nothing is entered into the table of a closed connection. -/
theorem Step.Effect.empty_of_closed {s : Step δ} (effect : s.Effect)
    (empty : s.before.closed = true → ∀ id, s.before.objects.get? id = none)
    (closed : s.after.closed = true) : ∀ id, s.after.objects.get? id = none := by
  have unusable {P : Prop} (usable : s.before.check = .ok ()) (closed : s.before.closed = true) :
      P := by
    rw [Connection.check_of_closed closed] at usable
    cases usable
  cases effect with
  | create usable | adopt usable | request usable | flush usable | attach usable | setQueue usable
  | createQueue usable | prepareRead usable | next usable => exact unusable usable closed
  | @release c o =>
    have nothing := empty closed
    obtain same | ⟨_, entry, found, _⟩ := ObjectTable.release_cases c.objects o.id o.generation
    · rwa [same]
    · exact absurd (found.symm.trans (nothing o.id)) (by simp)
  | destroyQueue =>
    intro id
    rw [ObjectTable.get?_reassignQueue, empty closed id]
    rfl
  | @read c outcomes _ gate =>
    have kept := Connection.readRound_kept { c with gate } outcomes
    have before : c.closed = true := kept.closed.symm.trans closed
    rw [Connection.readRound_of_closed (c := { c with gate }) before]
    exact empty before
  | close =>
    intro id
    simp [ObjectTable.clear, ObjectTable.get?]
  | _ => exact empty closed

theorem Connection.empty_of_closed (protocol : Protocol) (actions : List (Action δ))
    (closed : ((initial protocol : Connection δ).run actions).closed = true) :
    ∀ id, ((initial protocol : Connection δ).run actions).objects.get? id = none := by
  refine @trace_invariant δ Unit (fun _ => [])
    (fun _ c => c.closed = true → ∀ id, c.objects.get? id = none) ?_ actions [] _ ?_ closed
  · intro _ c action empty closed
    exact (c.step_effect action).empty_of_closed empty closed
  · intro closed
    cases closed

/-- In every run, also when it has closed the connection. -/
theorem Connection.live_queue_exists (protocol : Protocol) (actions : List (Action δ))
    {id : ObjectId} {entry : Entry δ}
    (live : ((initial protocol).run actions).objects.live? id = some entry) :
    ((initial protocol).run actions).queues.contains entry.queue = true := by
  cases closed : ((initial protocol : Connection δ).run actions).closed with
  | false => exact (run_housed protocol actions closed).used _ ⟨id, entry, live, rfl⟩
  | true =>
    obtain ⟨found, _⟩ := ObjectTable.live?_some.1 live
    rw [empty_of_closed protocol actions closed id] at found
    cases found

/-! ## Numbers of queues -/

namespace Connection

/-- A step that creates a queue takes the next number. -/
theorem step_newQueue_cases (c : Connection δ) (action : Action δ) :
    (c.step action).newQueue? = none ∧ (c.step action).after.queues.next = c.queues.next ∨
      (c.step action).newQueue? = some c.queues.next ∧
        (c.step action).after.queues.next = c.queues.next + 1 := by
  by_cases creates : action = .createQueue
  · subst creates
    simp only [Step.newQueue?, step, perform, Logged.value_bind, Logged.value_pure]
    cases created : c.createQueue.value with
    | error cause => exact .inl ⟨rfl, rfl⟩
    | ok result =>
      obtain ⟨queue, c'⟩ := result
      obtain ⟨_, rfl, rfl⟩ := createQueue_ok created
      exact .inr ⟨rfl, rfl⟩
  · left
    refine ⟨?_, ?_⟩
    · unfold Step.newQueue?
      split
      next created => exact absurd created creates
      · rfl
    · obtain same | ⟨created, _⟩ := (c.step_effect action).next_cases
      · exact same
      · exact absurd created creates

/-- Queues get the numbers 1, 2, 3 and so on. -/
theorem newQueues_eq (protocol : Protocol) (actions : List (Action δ)) :
    let made := newQueues ((initial protocol : Connection δ).trace actions)
    made = List.range' 1 made.length ∧
      ((initial protocol : Connection δ).run actions).queues.next = made.length + 1 := by
  refine history_invariant (I := fun past c =>
    newQueues past = List.range' 1 (newQueues past).length ∧
      c.queues.next = (newQueues past).length + 1) ?_ actions ⟨rfl, rfl⟩
  rintro past c action ⟨numbered, next⟩
  have snoc : newQueues (past ++ [c.step action]) =
      newQueues past ++ (c.step action).newQueue?.toList := by
    cases made : (c.step action).newQueue? <;> simp [newQueues, made]
  obtain ⟨none, same⟩ | ⟨some, more⟩ := c.step_newQueue_cases action
  · rw [snoc, none, same]
    simpa using ⟨numbered, next⟩
  · rw [snoc, some, more]
    simp only [Option.toList_some, List.length_append, List.length_singleton]
    refine ⟨?_, by rw [next]⟩
    rw [List.range'_concat, ← numbered, next]
    simp [Nat.add_comm]

theorem next_le_run (c : Connection δ) (actions : List (Action δ)) :
    c.queues.next ≤ (c.run actions).queues.next := by
  refine @trace_invariant δ Unit (fun _ => []) (fun _ d => c.queues.next ≤ d.queues.next) ?_
    actions [] c (Nat.le_refl _)
  intro _ d action more
  exact Nat.le_trans more (d.step_effect action).next_le

theorem lt_next_of_contains (protocol : Protocol) (actions : List (Action δ)) {queue : QueueId}
    (exist : ((initial protocol : Connection δ).run actions).queues.contains queue = true) :
    queue < ((initial protocol : Connection δ).run actions).queues.next := by
  refine Nat.lt_of_not_le fun unused => ?_
  rw [EventQueues.contains, ((ledger_run protocol actions).fresh queue unused).1] at exist
  cases exist

/-- A queue that is gone does not come back. -/
theorem gone_of_gone {c : Connection δ} {queue : QueueId}
    (housed : c.closed = false → c.Housed) (used : queue < c.queues.next)
    (gone : c.queues.get? queue = none) (actions : List (Action δ)) :
    (c.run actions).queues.get? queue = none := by
  refine (@trace_invariant δ Unit (fun _ => []) (fun _ d => (d.closed = false → d.Housed) ∧
    queue < d.queues.next ∧ d.queues.get? queue = none) ?_ actions [] c
    ⟨housed, used, gone⟩).2.2
  rintro _ d action ⟨housed, used, gone⟩
  have effect := d.step_effect action
  refine ⟨?_, Nat.lt_of_lt_of_le used effect.next_le, ?_⟩
  · intro isOpen
    exact effect.housed (housed (effect.open_before isOpen)) isOpen
  · cases d.step_onQueue action housed queue with
    | kept before => exact absurd (before.symm.trans gone) (by simp)
    | absent _ after => exact after
    | created fresh =>
      -- A new queue has a number that was not in use.
      exact absurd used (Nat.not_lt.2 (Nat.le_of_eq fresh.symm))
    | removed _ after => exact after

end Connection

/-! ## Messages for live objects -/

/-- Whether a note says that an event was lost for want of a queue. -/
def Note.ofMissingQueue : Note → Bool
  | .eventForMissingQueue _ _ => true
  | _ => false

/-- No event is lost for want of a queue. -/
def Logged.Places {α : Type} (x : Logged α) : Prop := ∀ n ∈ x.notes, n.ofMissingQueue = false

section

variable {α β : Type}

theorem Logged.places_pure (a : α) : (pure a : Logged α).Places := by simp [Places]

theorem Logged.places_note {n : Note} (other : n.ofMissingQueue = false) :
    (Logged.note n).Places := by
  simpa [Places] using other

theorem Logged.Places.bind {x : Logged α} {f : α → Logged β} (first : x.Places)
    (rest : (f x.value).Places) : (x >>= f).Places := by
  intro n mem
  rw [notes_bind, List.mem_append] at mem
  exact mem.elim (first n) (rest n)

end

namespace Connection

theorem fail_places (c : Connection δ) (error : FatalError) : (c.fail error).Places := by
  unfold fail
  dsimp only
  split
  · exact Logged.places_pure _
  · exact (Logged.places_note rfl).bind (Logged.places_pure _)

theorem deleteId_places (t : ObjectTable δ) (id : ObjectId) : (t.deleteId id).Places := by
  unfold ObjectTable.deleteId
  split
  · exact (Logged.places_note rfl).bind (Logged.places_pure _)
  · split <;> exact Logged.places_pure _

theorem handleDisplayEvent_places (c : Connection δ) (opcode : UInt16) (body : Wire.Bytes) :
    (c.handleDisplayEvent opcode body).Places := by
  unfold handleDisplayEvent
  split
  · exact Logged.places_pure _
  · dsimp only
    split
    · exact Logged.places_pure _
    · refine (Logged.places_note rfl).bind ?_
      split
      · exact (fail_places _ _).bind (Logged.places_pure _)
      · exact (deleteId_places _ _).bind (Logged.places_pure _)
      · exact Logged.places_pure _

theorem enterNewObjects_places (protocol : Protocol) (sender : ObjectId) (entry : Entry δ)
    (spec : MessageSpec) (index : Nat) (args : List Argument) (t : ObjectTable δ) :
    (enterNewObjects protocol sender entry spec index args t).Places := by
  induction args generalizing index t with
  | nil => exact Logged.places_pure _
  | cons arg args ih =>
    unfold enterNewObjects
    split
    · exact ih _ _
    · split
      · exact (Logged.places_note rfl).bind (ih _ _)
      · split
        · exact Logged.places_pure _
        · exact (Logged.places_note rfl).bind (ih _ _)

theorem push_places {q : EventQueues} {queue : QueueId} (exist : q.contains queue = true)
    (event : QueuedEvent) : (q.push queue event).Places := by
  unfold EventQueues.push
  split
  · exact Logged.places_pure _
  next absent =>
    rw [EventQueues.contains, absent] at exist
    cases exist

theorem handleObjectEvent_places {c : Connection δ} (housed : c.Housed) (id : ObjectId)
    (opcode : UInt16) (body : Wire.Bytes) : (c.handleObjectEvent id opcode body).Places := by
  unfold handleObjectEvent
  split
  · exact (Logged.places_note rfl).bind (Logged.places_pure _)
  next entry found =>
    dsimp only
    split
    · exact Logged.places_pure _
    · split
      · exact (Logged.places_note rfl).bind (Logged.places_pure _)
      next live =>
        split
        · exact Logged.places_pure _
        · refine (enterNewObjects_places _ _ _ _ _ _ _).bind ?_
          split
          · exact Logged.places_pure _
          · -- The queue of the sender is there, for the sender is alive.
            have exist : c.queues.contains entry.queue = true :=
              housed.used _ ⟨id, entry, ObjectTable.live?_some.2 ⟨found, live⟩, rfl⟩
            rw [if_pos exist]
            exact (push_places exist _).bind (Logged.places_pure _)

theorem Housed.handleMessage_places {c : Connection δ} (housed : c.Housed) (header : Wire.Header)
    (body : Wire.Bytes) : (c.handleMessage header body).Places := by
  unfold handleMessage
  split
  · exact handleDisplayEvent_places _ _ _
  · exact handleObjectEvent_places housed _ _ _

theorem handlings_housed {c : Connection δ} (housed : c.Housed) :
    ∀ h ∈ c.handlings, h.before.Housed := by
  refine (absorb_invariant (I := fun past d => d.Housed ∧ ∀ h ∈ past, h.before.Housed) ?_ ?_
    ⟨housed, by simp⟩).2
  · rintro past h ⟨housed, earlier⟩
    refine ⟨h.handles.housed ⟨housed.default, housed.used⟩, ?_⟩
    intro h' mem
    obtain old | rfl : h' ∈ past ∨ h' = h := by simpa using mem
    · exact earlier h' old
    · exact housed
  · rintro past d error ⟨housed, earlier⟩
    rw [fail_value]
    exact ⟨⟨housed.default, housed.used⟩, earlier⟩

/-- Whenever a message is handled in a run, all objects have their queues. -/
theorem handled_housed (protocol : Protocol) (actions : List (Action δ)) :
    ∀ s ∈ (initial protocol : Connection δ).trace actions, ∀ h ∈ s.handled, h.before.Housed := by
  intro s mem h handled
  obtain ⟨past, action, _, _, rfl⟩ := exists_of_mem_trace mem
  obtain ⟨nothing, _⟩ | ⟨nothing, _⟩ | ⟨outcomes, gate, _, _, usable, all, _⟩ :=
    (step_effect _ action).arrival_cases
  · rw [nothing] at handled
    cases handled
  · rw [nothing] at handled
    cases handled
  · rw [all] at handled
    have housed := run_housed protocol past (open_of_check usable)
    refine handlings_housed ?_ h handled
    exact ⟨housed.default, housed.used⟩

end Connection

/-- An event goes to the end of the queue of its sender. -/
theorem Handling.placed {h : Handling δ} {queue : QueueId} {event : QueuedEvent}
    (housed : h.before.Housed) (added : h.added? = some (queue, event)) :
    ∃ sender events, h.before.objects.live? event.sender = some sender ∧ sender.queue = queue ∧
      h.before.queues.get? queue = some events ∧
      h.after.queues.get? queue = some (events ++ [event]) := by
  obtain ⟨sender, _, live, _, _, chosen⟩ := added?_some added
  have exist := housed.used _ ⟨event.sender, sender, live, rfl⟩
  rw [if_pos exist] at chosen
  subst chosen
  obtain ⟨events, found⟩ := Option.isSome_iff_exists.1 exist
  refine ⟨sender, events, live, rfl, found, ?_⟩
  rw [h.queues_after, added, EventQueues.get?_pushAll, found]
  simp [EventQueues.arrivingOn]

/-- In every run, also one that has closed the connection.  The queue of every live object exists,
    and as long as the connection is open, so does the default queue.  A queue that has gone never
    comes back.  Queues are numbered 1, 2, 3 and so on in the order in which they are created, so a
    new one never has the number of an older one.  Hence whenever a message is handled, the queue
    of a live sender is there: its event goes to the end of this queue and no other, and no event
    is lost for want of a queue. -/
theorem queues_of_live_objects (protocol : Protocol) (actions : List (Action δ)) :
    let start : Connection δ := Connection.initial protocol
    let steps := start.trace actions
    let c := start.run actions
    (∀ id entry, c.objects.live? id = some entry → c.queues.contains entry.queue = true) ∧
    (c.closed = false → c.queues.contains QueueId.default = true) ∧
    (∀ past more future, actions = past ++ more ++ future → ∀ queue,
      (start.run past).queues.contains queue = true →
      (start.run (past ++ more)).queues.contains queue = false →
      c.queues.contains queue = false) ∧
    (newQueues steps = List.range' 1 (newQueues steps).length ∧
      ∀ queue c', c.createQueue.value = .ok (queue, c') → ∀ past, past <+: actions →
        (start.run past).queues.contains queue = false) ∧
    ∀ s ∈ steps, ∀ h ∈ s.handled,
      (∀ sender, h.before.objects.live? h.header.object = some sender →
        h.before.queues.contains sender.queue = true) ∧
      (∀ queue event, h.added? = some (queue, event) →
        ∃ sender events, h.before.objects.live? event.sender = some sender ∧
          sender.queue = queue ∧ h.before.queues.get? queue = some events ∧
          h.after.queues.get? queue = some (events ++ [event])) ∧
      ((h.before.withBytes h.rest).handleMessage h.header h.body).Places := by
  intro start steps c
  refine ⟨?_, ?_, ?_, ⟨?_, ?_⟩, ?_⟩
  · intro id entry live
    exact Connection.live_queue_exists protocol actions live
  · intro isOpen
    exact (Connection.run_housed protocol actions isOpen).default
  · rintro past more future rfl queue existed removed
    have used := Nat.lt_of_lt_of_le (Connection.lt_next_of_contains protocol past existed)
      ((start.run past).next_le_run more)
    rw [← Connection.run_append] at used
    have absent : (start.run (past ++ more)).queues.get? queue = none := by
      simpa [EventQueues.contains] using removed
    have gone := Connection.gone_of_gone (ledger_run protocol (past ++ more)).housed used absent
      future
    rw [← Connection.run_append] at gone
    rw [EventQueues.contains, gone]
    rfl
  · exact (Connection.newQueues_eq protocol actions).1
  · rintro queue c' created past ⟨future, rfl⟩
    obtain ⟨_, rfl, _⟩ := Connection.createQueue_ok created
    refine Bool.eq_false_iff.2 fun existed => ?_
    have used := Nat.lt_of_lt_of_le (Connection.lt_next_of_contains protocol past existed)
      ((start.run past).next_le_run future)
    rw [← Connection.run_append] at used
    exact Nat.lt_irrefl _ used
  · intro s mem h handled
    have housed := Connection.handled_housed protocol actions s mem h handled
    have ready : (h.before.withBytes h.rest).Housed := ⟨housed.default, housed.used⟩
    refine ⟨?_, fun queue event added => h.placed housed added, ready.handleMessage_places _ _⟩
    intro sender live
    exact housed.used _ ⟨h.header.object, sender, live, rfl⟩

/-- A clock with one event. -/
def clock : Interface := ⟨"clock", 1, [], [⟨"tick", "u", [none]⟩]⟩

/-- A clock ticks in a queue of its own.  The queue goes and another one comes before the clock
    ticks again. -/
def queueReplaced : List (Action Unit) :=
  let arrives (message : Incoming) : Action Unit :=
    .read [.received message.packet.bytes [], .wouldBlock]
  [.create ⟨displayId, 0, Protocol.Core.display, 1⟩ clock 1, .createQueue,
    .setQueue ⟨2, 1, clock, 1⟩ 1,
    .prepareRead QueueId.default, arrives (.event 2 0 [.uint 5]),
    .destroyQueue 1, .createQueue,
    .prepareRead QueueId.default, arrives (.event 2 0 [.uint 6])]

/-- The second event goes to the default queue, not to the new one. -/
theorem queues_of_live_objects_replaced :
    let start : Connection Unit := Connection.initial ⟨[]⟩
    let steps := start.trace queueReplaced
    let c := start.run queueReplaced
    (start.run (queueReplaced.take 2)).queues.contains 1 = true ∧
      c.queues.contains 1 = false ∧ c.queues.contains 2 = true ∧
      ∃ s ∈ steps, ∃ h ∈ s.handled,
        h.added? = some (QueueId.default, ⟨2, 1, 0, [.uint 6]⟩) ∧
        ∃ events, h.after.queues.get? QueueId.default =
          some (events ++ [⟨2, 1, 0, [.uint 6]⟩]) := by
  intro start steps c
  have existed : (start.run (queueReplaced.take 2)).queues.contains 1 = true := by decide +kernel
  have removed : (start.run (queueReplaced.take 2 ++ (queueReplaced.drop 2).take 4)).queues.contains
      1 = false := by decide +kernel
  have read : ∃ s ∈ steps, ∃ h ∈ s.handled,
      h.added? = some (QueueId.default, ⟨2, 1, 0, [.uint 6]⟩) := by decide +kernel
  obtain ⟨_, _, gone, _, placed⟩ := queues_of_live_objects (δ := Unit) ⟨[]⟩ queueReplaced
  obtain ⟨s, mem, h, handled, added⟩ := read
  obtain ⟨_, events, _, _, _, after⟩ := (placed s mem h handled).2.1 _ _ added
  refine ⟨existed, ?_, by decide +kernel, s, mem, h, handled, added, events, after⟩
  exact gone _ _ (queueReplaced.drop 6) rfl 1 existed removed

end Wayland.Client
