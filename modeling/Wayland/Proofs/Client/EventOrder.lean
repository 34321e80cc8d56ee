import Wayland.Proofs.Client.Handlings

/-! # Events leave a queue in the order of the stream

What goes into a queue in the course of a run is a sublist of what the messages add
(`pushedTo`), what comes out are the events at its front that disappear when it is asked for the
next one (`poppedFrom`).  `Ledger` relates the two at every moment of a run: what went in is what
came out, followed by what is still there.  Only a queue that is removed takes events with it.

`Step.OnQueue` says what one step can do to one queue.  The ledger is kept by case analysis on it,
whatever objects are created, destroyed or moved to other queues meanwhile.
-/

namespace Wayland.Client

variable {δ : Type}

/-! ## The next event -/

/-- The delivery of an event whose sender is still the object that it came from and has something
    attached to it. -/
def ObjectTable.delivery? (t : ObjectTable δ) (event : QueuedEvent) : Option (Delivery δ) := do
  let entry ← t.current? event.sender event.generation
  let data ← entry.data
  return { data, interface := entry.interface, event }

theorem ObjectTable.delivery?_some {t : ObjectTable δ} {event : QueuedEvent} {d : Delivery δ} :
    t.delivery? event = some d ↔ ∃ entry, t.current? event.sender event.generation = some entry ∧
      entry.data = some d.data ∧ d.interface = entry.interface ∧ d.event = event := by
  obtain ⟨data, interface, queued⟩ := d
  simp only [delivery?, Option.bind_eq_bind, Option.bind_eq_some_iff, Option.pure_def,
    Option.some.injEq, Delivery.mk.injEq]
  grind

theorem ObjectTable.delivery?_isSome {t : ObjectTable δ} {event : QueuedEvent} :
    (t.delivery? event).isSome = true ↔
      ∃ entry, t.current? event.sender event.generation = some entry ∧
        entry.data.isSome = true := by
  cases current : t.current? event.sender event.generation with
  | none => simp [delivery?, current]
  | some entry => cases attached : entry.data <;> simp [delivery?, current, attached]

namespace Connection

theorem firstDelivery_cons (t : ObjectTable δ) (event : QueuedEvent) (events : List QueuedEvent) :
    (firstDelivery t (event :: events)).value =
      match t.delivery? event with
      | some d => (some d, events)
      | none => (firstDelivery t events).value := by
  cases found : t.live? event.sender with
  | none =>
    have lost : t.delivery? event = none := by
      simp [ObjectTable.delivery?, ObjectTable.current?, found]
    simp [firstDelivery, found, lost]
  | some entry =>
    by_cases same : entry.generation = event.generation
    · have current : t.current? event.sender event.generation = some entry := by
        obtain ⟨present, live⟩ := ObjectTable.live?_some.1 found
        exact ObjectTable.current?_some.2 ⟨present, live, same⟩
      cases attached : entry.data <;>
        simp [firstDelivery, ObjectTable.delivery?, found, same, current, attached]
    · have lost : t.delivery? event = none := by
        simp [ObjectTable.delivery?, ObjectTable.current?, found, same]
      simp [firstDelivery, found, same, lost]

/-- Events that cannot be delivered are dropped, up to the first one that can. -/
theorem firstDelivery_cases (t : ObjectTable δ) (events : List QueuedEvent) :
    ∃ dropped, (∀ event ∈ dropped, t.delivery? event = none) ∧
      ((firstDelivery t events).value = (none, []) ∧ events = dropped ∨
        ∃ d rest, (firstDelivery t events).value = (some d, rest) ∧
          events = dropped ++ d.event :: rest ∧ t.delivery? d.event = some d) := by
  induction events with
  | nil => exact ⟨[], by simp, .inl ⟨rfl, rfl⟩⟩
  | cons event events ih =>
    rw [firstDelivery_cons]
    cases delivered : t.delivery? event with
    | some d =>
      obtain ⟨_, _, _, _, rfl⟩ := ObjectTable.delivery?_some.1 delivered
      exact ⟨[], by simp, .inr ⟨d, events, rfl, rfl, delivered⟩⟩
    | none =>
      obtain ⟨dropped, lost, outcome⟩ := ih
      refine ⟨event :: dropped, by simpa [delivered] using lost, ?_⟩
      obtain ⟨nothing, all⟩ | ⟨d, rest, first, split, found⟩ := outcome
      · exact .inl ⟨nothing, by rw [all]⟩
      · exact .inr ⟨d, rest, first, by rw [split, List.cons_append], found⟩

end Connection

/-! ## What goes into a queue and what comes out -/

namespace Step

/-- The event that a step hands over to what is attached to its sender. -/
def delivery? (s : Step δ) : Option (Delivery δ) :=
  match s.action with
  | .next queue =>
    match (s.before.nextEvent queue).value.1 with
    | .ok d => d
    | .error _ => none
  | _ => none

/-- The events that a step takes out of a queue in order to deliver the last of them. -/
def popped (queue : QueueId) (s : Step δ) : List QueuedEvent :=
  match s.action with
  | .next asked =>
    let events := (s.before.queues.get? queue).getD []
    let rest := (s.after.queues.get? queue).getD []
    if asked = queue then events.take (events.length - rest.length) else []
  | _ => []

/-- The queue goes, with what is in it. -/
def Removes (s : Step δ) (queue : QueueId) : Prop :=
  s.action = .destroyQueue queue ∨ ∃ outcomes, s.action = .close outcomes

/-- What a step can do to a queue. -/
inductive OnQueue (s : Step δ) (queue : QueueId) (pushed : List QueuedEvent) : Prop
  | kept {events events' : List QueuedEvent} (before : s.before.queues.get? queue = some events)
      (after : s.after.queues.get? queue = some events')
      (moved : events ++ pushed = s.popped queue ++ events')
  | absent (before : s.before.queues.get? queue = none) (after : s.after.queues.get? queue = none)
      (silent : pushed = []) (idle : s.popped queue = [])
  | created (fresh : queue = s.before.queues.next) (known : queue < s.after.queues.next)
      (after : s.after.queues.get? queue = some []) (silent : pushed = [])
      (idle : s.popped queue = [])
  | removed {events : List QueuedEvent} (before : s.before.queues.get? queue = some events)
      (after : s.after.queues.get? queue = none) (removes : s.Removes queue)
      (silent : pushed = []) (idle : s.popped queue = [])

end Step

/-- The events that go into a queue, in the order of the messages that bring them. -/
def pushedTo (queue : QueueId) (steps : List (Step δ)) : List QueuedEvent :=
  EventQueues.arrivingOn queue ((steps.flatMap Step.handled).filterMap Handling.added?)

def poppedFrom (queue : QueueId) (steps : List (Step δ)) : List QueuedEvent :=
  steps.flatMap (Step.popped queue)

theorem pushedTo_append (queue : QueueId) (steps more : List (Step δ)) :
    pushedTo queue (steps ++ more) = pushedTo queue steps ++ pushedTo queue more := by
  simp [pushedTo, EventQueues.arrivingOn]

theorem poppedFrom_append (queue : QueueId) (steps more : List (Step δ)) :
    poppedFrom queue (steps ++ more) = poppedFrom queue steps ++ poppedFrom queue more :=
  List.flatMap_append

variable {s : Step δ} {queue : QueueId}

theorem mem_pushedTo {event : QueuedEvent} {steps : List (Step δ)} :
    event ∈ pushedTo queue steps ↔
      ∃ s ∈ steps, ∃ h ∈ s.handled, h.added? = some (queue, event) := by
  simp only [pushedTo, EventQueues.arrivingOn, List.mem_map, List.mem_filter, List.mem_filterMap,
    List.mem_flatMap, decide_eq_true_eq]
  constructor
  · rintro ⟨⟨target, event⟩, ⟨⟨h, ⟨s, mem, handled⟩, added⟩, rfl⟩, rfl⟩
    exact ⟨s, mem, h, handled, added⟩
  · rintro ⟨s, mem, h, handled, added⟩
    exact ⟨(queue, event), ⟨⟨h, ⟨s, mem, handled⟩, added⟩, rfl⟩, rfl⟩

theorem pushedTo_of_idle (idle : s.handled = []) : pushedTo queue [s] = [] := by
  simp [pushedTo, EventQueues.arrivingOn, idle]

/-- Events go into queues that were there before. -/
theorem Connection.added_contains {c : Connection δ}
    (default : c.queues.contains QueueId.default = true) :
    ∀ h ∈ c.handlings, ∀ queue event, h.added? = some (queue, event) →
      c.queues.contains queue = true := by
  refine (absorb_invariant (I := fun past d =>
    (∀ queue, d.queues.contains queue = c.queues.contains queue) ∧
      ∀ h ∈ past, ∀ queue event, h.added? = some (queue, event) →
        c.queues.contains queue = true) ?_ ?_ ⟨fun _ => rfl, by simp⟩).2
  · rintro past h ⟨same, known⟩
    refine ⟨?_, ?_⟩
    · intro queue
      rw [h.queues_after, ← same, EventQueues.contains, EventQueues.get?_pushAll,
        Option.isSome_map, EventQueues.contains]
    · intro h' mem queue event added
      obtain old | rfl : h' ∈ past ∨ h' = h := by simpa using mem
      · exact known h' old queue event added
      · obtain ⟨sender, _, _, _, _, rfl⟩ := Handling.added?_some added
        split
        next exist => rw [← same, exist]
        · exact default
  · rintro past d error ⟨same, known⟩
    rw [fail_value]
    exact ⟨same, known⟩

theorem Step.Effect.pushedTo_absent (effect : s.Effect)
    (housed : s.before.closed = false → s.before.Housed)
    (absent : s.before.queues.get? queue = none) : pushedTo queue [s] = [] := by
  obtain ⟨idle, _⟩ | ⟨idle, _⟩ | ⟨outcomes, gate, _, _, usable, handled, _⟩ := effect.arrival_cases
  · exact pushedTo_of_idle idle
  · exact pushedTo_of_idle idle
  · have exist := Connection.added_contains (c := { s.before with gate }.filled outcomes)
      (housed (Connection.open_of_check usable)).default
    -- An event for this queue would have found the queue.
    refine List.eq_nil_iff_forall_not_mem.2 ?_
    intro event mem
    obtain ⟨step, isStep, h, mem, added⟩ := mem_pushedTo.1 mem
    rw [List.mem_singleton.1 isStep, handled] at mem
    have found : s.before.queues.contains queue = true := exist h mem queue event added
    rw [EventQueues.contains, absent] at found
    cases found

/-! ## What one step does to one queue -/

theorem Step.popped_next {taken rest : List QueuedEvent} (asks : s.action = .next queue)
    (before : s.before.queues.get? queue = some (taken ++ rest))
    (after : s.after.queues.get? queue = some rest) : s.popped queue = taken := by
  simp [popped, asks, before, after]

theorem Step.popped_of_same (same : s.after.queues = s.before.queues) : s.popped queue = [] := by
  unfold popped
  split
  · simp [same]
  · rfl

theorem Step.handled_of_action (noRead : ∀ outcomes, s.action ≠ .read outcomes) :
    s.handled = [] := by
  unfold handled
  split
  next reads _ _ => exact absurd reads (noRead _)
  · rfl

theorem Step.Effect.queues_cases (effect : s.Effect) :
    (∃ outcomes, s.action = .read outcomes) ∨
    (∀ outcomes, s.action ≠ .read outcomes) ∧
      ((∃ asked, s.action = .next asked ∧ s.after.queues.next = s.before.queues.next) ∨
        s.after.queues = s.before.queues ∨
        s.action = .createQueue ∧ s.after.queues = s.before.queues.create.2 ∨
        (∃ gone, s.action = .destroyQueue gone ∧
          s.after.queues = (s.before.queues.remove gone).2) ∨
        ∃ outcomes, s.action = .close outcomes ∧ s.after.queues = s.before.queues.clear) := by
  cases effect with
  | refused noRead => exact .inr ⟨noRead, .inr (.inl rfl)⟩
  | read | withdraw => exact .inl ⟨_, rfl⟩
  | next => exact .inr ⟨nofun, .inl ⟨_, rfl, rfl⟩⟩
  | createQueue => exact .inr ⟨nofun, .inr (.inr (.inl ⟨rfl, rfl⟩))⟩
  | destroyQueue => exact .inr ⟨nofun, .inr (.inr (.inr (.inl ⟨_, rfl, rfl⟩)))⟩
  | close => exact .inr ⟨nofun, .inr (.inr (.inr (.inr ⟨_, rfl, rfl⟩)))⟩
  | _ => exact .inr ⟨nofun, .inr (.inl rfl)⟩

theorem EventQueues.next_pushAll (q : EventQueues) (arrivals : List (QueueId × QueuedEvent)) :
    (q.pushAll arrivals).next = q.next := by
  induction arrivals generalizing q with
  | nil => rfl
  | cons arrival arrivals ih => exact (ih _).trans (next_push arrival.2)

/-- Only a new queue takes a number. -/
theorem Step.Effect.next_cases (effect : s.Effect) :
    s.after.queues.next = s.before.queues.next ∨
      s.action = .createQueue ∧ s.after.queues = s.before.queues.create.2 := by
  obtain ⟨outcomes, reads⟩ | ⟨_, ⟨_, _, next⟩ | same | created | ⟨gone, _, queues⟩ |
    ⟨_, _, queues⟩⟩ := effect.queues_cases
  · rw [effect.queues_of_read reads]
    exact .inl (EventQueues.next_pushAll _ _)
  · exact .inl next
  · exact .inl (congrArg EventQueues.next same)
  · exact .inr created
  · rw [queues]
    unfold EventQueues.remove
    split <;> exact .inl rfl
  · rw [queues]
    exact .inl rfl

/-- Numbers of queues are never used again. -/
theorem Step.Effect.next_le (effect : s.Effect) :
    s.before.queues.next ≤ s.after.queues.next := by
  obtain same | ⟨_, queues⟩ := effect.next_cases
  · exact Nat.le_of_eq same.symm
  · rw [queues]
    exact Nat.le_succ _

theorem Step.OnQueue.untouched
    (same : s.after.queues.get? queue = s.before.queues.get? queue)
    (silent : pushedTo queue [s] = []) (idle : s.popped queue = []) :
    s.OnQueue queue (pushedTo queue [s]) := by
  cases found : s.before.queues.get? queue with
  | none => exact .absent found (same.trans found) silent idle
  | some events => exact .kept found (same.trans found) (by simp [silent, idle])

namespace Connection

variable {c : Connection δ}

/-- A queue that is asked for the next event loses those that cannot be delivered, and then the one
    that is delivered. -/
theorem step_next_cases (c : Connection δ) (queue : QueueId) :
    (c.step (.next queue)).after = c ∧ (c.step (.next queue)).popped queue = [] ∧
      (c.step (.next queue)).delivery? = none ∧
      (c.check = .ok () → c.queues.get? queue = none) ∨
    ∃ dropped, (∀ event ∈ dropped, c.objects.delivery? event = none) ∧
      ((c.step (.next queue)).delivery? = none ∧ c.queues.get? queue = some dropped ∧
          (c.step (.next queue)).popped queue = dropped ∧
          (c.step (.next queue)).after = { c with queues := c.queues.set queue [] } ∨
        ∃ d rest, (c.step (.next queue)).delivery? = some d ∧
          c.objects.delivery? d.event = some d ∧
          c.queues.get? queue = some (dropped ++ [d.event] ++ rest) ∧
          (c.step (.next queue)).popped queue = dropped ++ [d.event] ∧
          (c.step (.next queue)).after = { c with queues := c.queues.set queue rest }) := by
  obtain ⟨cause, value⟩ | ⟨events, usable, exist, value⟩ := nextEvent_value c queue
  · left
    have after : (c.step (.next queue)).after = c := by simp [step, perform, value]
    have nobody : (c.step (.next queue)).delivery? = none := by simp [Step.delivery?, step, value]
    refine ⟨after, Step.popped_of_same (congrArg queues after), nobody, ?_⟩
    intro usable
    cases found : c.queues.get? queue with
    | none => rfl
    | some events => simp [nextEvent, usable, found] at value
  · right
    have after : (c.step (.next queue)).after =
        { c with queues := c.queues.set queue (firstDelivery c.objects events).value.2 } := by
      simp [step, perform, value]
    have delivery :
        (c.step (.next queue)).delivery? = (firstDelivery c.objects events).value.1 := by
      simp [Step.delivery?, step, value]
    have popped {taken rest : List QueuedEvent} (split : events = taken ++ rest)
        (left : (firstDelivery c.objects events).value.2 = rest) :
        (c.step (.next queue)).popped queue = taken := by
      refine Step.popped_next rfl (exist.trans (congrArg some split)) ?_
      rw [after, left, EventQueues.get?_set, if_pos rfl]
    obtain ⟨dropped, lost, ⟨nothing, rfl⟩ | ⟨d, rest, first, split, found⟩⟩ :=
      firstDelivery_cases c.objects events
    · refine ⟨events, lost, .inl ⟨by rw [delivery, nothing], exist, ?_, by rw [after, nothing]⟩⟩
      exact popped (List.append_nil events).symm (by rw [nothing])
    · have split' : events = dropped ++ [d.event] ++ rest := by simp [split]
      refine ⟨dropped, lost, .inr ⟨d, rest, by rw [delivery, first], found, ?_, ?_, ?_⟩⟩
      · rw [exist, split']
      · exact popped split' (by rw [first])
      · rw [after, first]

theorem step_next_onQueue (c : Connection δ) (asked queue : QueueId) :
    (c.step (.next asked)).OnQueue queue (pushedTo queue [c.step (.next asked)]) := by
  have before : (c.step (.next asked)).before = c := rfl
  have silent : pushedTo queue [c.step (.next asked)] = [] := pushedTo_of_idle rfl
  by_cases same : queue = asked
  · subst same
    obtain ⟨after, popped, _⟩ | ⟨dropped, _, ⟨_, exist, popped, after⟩ |
      ⟨d, rest, _, _, exist, popped, after⟩⟩ := step_next_cases c queue
    · exact .untouched (by rw [after, before]) silent popped
    · have emptied : (c.step (.next queue)).after.queues.get? queue = some [] := by
        rw [after, EventQueues.get?_set, if_pos rfl]
      exact .kept exist emptied (by rw [silent, popped])
    · have left : (c.step (.next queue)).after.queues.get? queue = some rest := by
        rw [after, EventQueues.get?_set, if_pos rfl]
      exact .kept exist left (by rw [silent, popped, List.append_nil])
  · have idle : (c.step (.next asked)).popped queue = [] := by
      simp [Step.popped, step, @eq_comm _ asked, same]
    refine .untouched ?_ silent idle
    obtain ⟨after, _⟩ | ⟨_, _, ⟨_, _, _, after⟩ | ⟨_, _, _, _, _, _, after⟩⟩ :=
      step_next_cases c asked
    · rw [after, before]
    · rw [after, before, EventQueues.get?_set, if_neg same]
    · rw [after, before, EventQueues.get?_set, if_neg same]

/-- What a step can do to a queue: let events in at its end and out at its front, or create or
    remove it. -/
theorem step_onQueue (action : Action δ) (housed : c.closed = false → c.Housed) (queue : QueueId) :
    (c.step action).OnQueue queue (pushedTo queue [c.step action]) := by
  have effect := c.step_effect action
  generalize isStep : c.step action = s at effect
  have before : s.before = c := by rw [← isStep]; rfl
  obtain ⟨outcomes, reads⟩ | ⟨noRead, cases⟩ := effect.queues_cases
  · -- Reading only adds events, and only to queues that exist.
    have idle : s.popped queue = [] := by simp [Step.popped, reads]
    have lookup : s.after.queues.get? queue =
        (s.before.queues.get? queue).map (· ++ pushedTo queue [s]) := by
      rw [effect.queues_of_read reads, EventQueues.get?_pushAll]
      simp [pushedTo]
    cases found : s.before.queues.get? queue with
    | none =>
      rw [found] at lookup
      exact .absent found lookup (effect.pushedTo_absent (before ▸ housed) found) idle
    | some events =>
      rw [found] at lookup
      exact .kept found lookup (by rw [idle, List.nil_append])
  · have silent : pushedTo queue [s] = [] := pushedTo_of_idle (Step.handled_of_action noRead)
    obtain ⟨asked, asks, _⟩ | same | ⟨creates, queues⟩ | ⟨gone, removes, queues⟩ |
      ⟨outcomes, closes, queues⟩ := cases
    · obtain rfl : action = .next asked := by
        rw [← isStep] at asks
        exact asks
      rw [← isStep]
      exact step_next_onQueue c asked queue
    · exact .untouched (by rw [same]) silent (Step.popped_of_same same)
    · have idle : s.popped queue = [] := by simp [Step.popped, creates]
      by_cases fresh : queue = s.before.queues.next
      · refine .created fresh ?_ ?_ silent idle
        · rw [queues, fresh]
          exact Nat.lt_succ_self _
        · rw [queues, EventQueues.get?_create, if_pos fresh]
      · exact .untouched (by rw [queues, EventQueues.get?_create, if_neg fresh]) silent idle
    · have idle : s.popped queue = [] := by simp [Step.popped, removes]
      by_cases target : queue = gone ∧ gone ≠ QueueId.default
      · have after : s.after.queues.get? queue = none := by
          rw [queues, EventQueues.get?_remove, if_pos target]
        cases found : s.before.queues.get? queue with
        | none => exact .absent found after silent idle
        | some events => exact .removed found after (.inl (target.1 ▸ removes)) silent idle
      · -- The default queue stays when it is destroyed.
        exact .untouched (by rw [queues, EventQueues.get?_remove, if_neg target]) silent idle
    · have idle : s.popped queue = [] := by simp [Step.popped, closes]
      have after : s.after.queues.get? queue = none := by
        rw [queues, EventQueues.get?_clear]
      cases found : s.before.queues.get? queue with
      | none => exact .absent found after silent idle
      | some events => exact .removed found after (.inr ⟨outcomes, closes⟩) silent idle

end Connection

/-! ## Whole runs -/

/-- What is left of the events of a queue: they are in it, or were lost with it. -/
def Remains (past : List (Step δ)) (c : Connection δ) (queue : QueueId)
    (rest : List QueuedEvent) : Prop :=
  c.queues.get? queue = some rest ∨
    c.queues.get? queue = none ∧
      (rest = [] ∨ ∃ s ∈ past, s.Removes queue ∧ s.before.queues.get? queue = some rest)

/-- The steps of the past and the queues that they have led to. -/
structure Ledger (past : List (Step δ)) (c : Connection δ) : Prop where
  housed : c.closed = false → c.Housed
  fresh : ∀ queue, c.queues.next ≤ queue →
    c.queues.get? queue = none ∧ pushedTo queue past = []
  account : ∀ queue, ∃ rest, pushedTo queue past = poppedFrom queue past ++ rest ∧
    Remains past c queue rest

theorem Remains.snoc {past : List (Step δ)} {c : Connection δ} {rest : List QueuedEvent}
    (remains : Remains past c queue rest) (before : c.queues.get? queue = none)
    (after : s.after.queues.get? queue = none) : Remains (past ++ [s]) s.after queue rest := by
  obtain waiting | ⟨_, rfl | ⟨step, mem, lost⟩⟩ := remains
  · rw [before] at waiting
    cases waiting
  · exact .inr ⟨after, .inl rfl⟩
  · exact .inr ⟨after, .inr ⟨step, List.mem_append_left _ mem, lost⟩⟩

theorem Remains.waiting {past : List (Step δ)} {c : Connection δ} {rest events : List QueuedEvent}
    (remains : Remains past c queue rest) (exist : c.queues.get? queue = some events) :
    rest = events := by
  obtain waiting | ⟨absent, _⟩ := remains
  · rw [exist] at waiting
    cases waiting
    rfl
  · rw [exist] at absent
    cases absent

theorem initial_ledger (protocol : Protocol) :
    Ledger [] (Connection.initial protocol : Connection δ) where
  housed := fun _ => Connection.initial_housed protocol
  fresh := by
    intro queue unused
    refine ⟨?_, rfl⟩
    have other : queue ≠ QueueId.default := by
      rintro rfl
      exact absurd unused (Nat.not_succ_le_zero 0)
    simp [Connection.initial, EventQueues.get?_initial, other]
  account := by
    intro queue
    refine ⟨[], rfl, ?_⟩
    by_cases isDefault : queue = QueueId.default <;>
      simp [Remains, Connection.initial, EventQueues.get?_initial, isDefault]

theorem ledger_step (past : List (Step δ)) (c : Connection δ) (action : Action δ)
    (ledger : Ledger past c) : Ledger (past ++ [c.step action]) (c.step action).after := by
  have effect := c.step_effect action
  have onQueue := fun queue => c.step_onQueue action ledger.housed queue
  refine ⟨?_, ?_, ?_⟩
  · intro isOpen
    exact effect.housed (ledger.housed (effect.open_before isOpen)) isOpen
  · intro queue unused
    obtain ⟨absent, silent⟩ := ledger.fresh queue (Nat.le_trans effect.next_le unused)
    rw [pushedTo_append, silent, List.nil_append]
    cases onQueue queue with
    | kept before => exact absurd (before.symm.trans absent) (by simp)
    | absent _ after nothing => exact ⟨after, nothing⟩
    | created _ known => exact absurd known (Nat.not_lt.2 unused)
    | removed before => exact absurd (before.symm.trans absent) (by simp)
  · intro queue
    obtain ⟨rest, split, remains⟩ := ledger.account queue
    have popped : poppedFrom queue (past ++ [c.step action]) =
        poppedFrom queue past ++ (c.step action).popped queue := by
      simp [poppedFrom]
    rw [pushedTo_append, popped]
    cases onQueue queue with
    | @kept events events' before after moved =>
      obtain rfl := remains.waiting before
      exact ⟨events', by rw [split, List.append_assoc, moved, List.append_assoc], .inl after⟩
    | absent before after silent idle =>
      exact ⟨rest, by rw [silent, idle, List.append_nil, List.append_nil, split],
        remains.snoc before after⟩
    | created fresh _ after silent idle =>
      -- A queue that is new has no past.
      have nothing := (ledger.fresh queue (by rw [fresh]; exact Nat.le_refl _)).2
      rw [nothing] at split
      obtain ⟨noPop, _⟩ := List.append_eq_nil_iff.1 split.symm
      exact ⟨[], by simp [nothing, noPop, silent, idle], .inl after⟩
    | removed before after removes silent idle =>
      obtain rfl := remains.waiting before
      refine ⟨rest, by rw [silent, idle, List.append_nil, List.append_nil, split], .inr ⟨after, ?_⟩⟩
      exact .inr ⟨c.step action, by simp, removes, before⟩

theorem ledger_run (protocol : Protocol) (actions : List (Action δ)) :
    Ledger ((Connection.initial protocol).trace actions)
      ((Connection.initial protocol).run actions) :=
  Connection.history_invariant ledger_step actions (initial_ledger protocol)

theorem Ledger.pushed {past : List (Step δ)} {c : Connection δ} {events : List QueuedEvent}
    (ledger : Ledger past c) (exist : c.queues.get? queue = some events) :
    ∀ event ∈ events, event ∈ pushedTo queue past := by
  intro event mem
  obtain ⟨rest, split, remains⟩ := ledger.account queue
  obtain rfl := remains.waiting exist
  rw [split]
  exact List.mem_append_right _ mem

/-- Whatever comes out of a queue is delivered exactly if that is possible at this moment, and
    nothing else is delivered. -/
theorem Connection.popped_delivered_iff (c : Connection δ) (queue : QueueId) :
    (∀ event ∈ (c.step (.next queue)).popped queue,
      (c.step (.next queue)).delivery?.map Delivery.event = some event ↔
        (c.objects.delivery? event).isSome = true) ∧
    ∀ d, (c.step (.next queue)).delivery? = some d →
      c.objects.delivery? d.event = some d ∧
      ∃ dropped, (c.step (.next queue)).popped queue = dropped ++ [d.event] := by
  obtain ⟨_, popped, nothing, _⟩ | ⟨dropped, lost, ⟨nothing, _, popped, _⟩ |
    ⟨d, _, delivered, found, _, popped, _⟩⟩ := step_next_cases c queue
  · simp [popped, nothing]
  · refine ⟨?_, by simp [nothing]⟩
    intro event mem
    rw [popped] at mem
    simp [nothing, lost event mem]
  · refine ⟨?_, ?_⟩
    · intro event mem
      rw [popped, List.mem_append, List.mem_singleton] at mem
      obtain early | rfl := mem
      · have differs : d.event ≠ event := by
          rintro rfl
          rw [lost _ early] at found
          cases found
        simp [delivered, differs, lost event early]
      · simp [delivered, found]
    · intro d' isDelivery
      rw [delivered] at isDelivery
      cases isDelivery
      exact ⟨found, dropped, popped⟩

theorem Connection.delivered_waiting {c : Connection δ} {d : Delivery δ}
    (delivered : (c.step (.next queue)).delivery? = some d) :
    ∃ events, c.queues.get? queue = some events ∧ d.event ∈ events := by
  obtain ⟨_, _, nothing, _⟩ | ⟨_, _, ⟨nothing, _⟩ | ⟨d', _, delivered', _, exist, _⟩⟩ :=
    step_next_cases c queue
  · rw [nothing] at delivered
    cases delivered
  · rw [nothing] at delivered
    cases delivered
  · rw [delivered'] at delivered
    cases delivered
    exact ⟨_, exist, by simp⟩

/-- As long as a connection is in use, a queue with events in it gives up at least one when it is
    asked, and all of them if it delivers none. -/
theorem Connection.popped_of_waiting {c : Connection δ} {events : List QueuedEvent}
    (usable : c.check = .ok ()) (exist : c.queues.get? queue = some events) :
    (events ≠ [] → (c.step (.next queue)).popped queue ≠ []) ∧
    ((c.step (.next queue)).delivery? = none → (c.step (.next queue)).popped queue = events) := by
  obtain ⟨_, _, _, absent⟩ | ⟨dropped, _, ⟨_, same, popped, _⟩ |
    ⟨d, _, delivered, _, _, popped, _⟩⟩ := step_next_cases c queue
  · rw [absent usable] at exist
    cases exist
  · rw [exist] at same
    cases same
    simp [popped]
  · simp [popped, delivered]

/-- In every run, whatever threads and handlers do, a reader takes what the socket answers from the
    front.  The bytes of all answers are those of the messages that were handled, in their order,
    and those that still wait; likewise the descriptors.  The events that messages add to a queue
    come out of it in this order, each of them once.  Those that have not come out are in the
    queue, or were in it when it was removed or the connection was closed.

    When a queue is asked for the next event, an event that comes out is delivered if and only if
    at that moment its sender is the live object it came from and has something attached to it.
    Nothing else is delivered, and the queue of a connection that is in use does not keep back
    events. -/
theorem queues_first_in_first_out (protocol : Protocol) (actions : List (Action δ)) :
    let steps := (Connection.initial protocol : Connection δ).trace actions
    let c := (Connection.initial protocol : Connection δ).run actions
    (∀ s ∈ steps, ∀ outcomes, s.action = .read outcomes →
      s.answers = outcomes.take (s.before.readEvents outcomes).value.2.1) ∧
    (steps.flatMap Step.answers).flatMap ReadOutcome.bytes =
      (steps.flatMap Step.handled).flatMap Handling.message ++ c.inbox.bytes ∧
    (steps.flatMap Step.answers).flatMap ReadOutcome.fds =
      (steps.flatMap Step.handled).flatMap Handling.descriptors ++ c.inbox.fds ∧
    (∀ queue, ∃ rest, pushedTo queue steps = poppedFrom queue steps ++ rest ∧
      (c.queues.get? queue = some rest ∨
        c.queues.get? queue = none ∧ (rest = [] ∨
          ∃ s ∈ steps, s.Removes queue ∧ s.before.queues.get? queue = some rest))) ∧
    ∀ queue,
      let s := c.step (.next queue)
      (∀ event ∈ s.popped queue,
        s.delivery?.map Delivery.event = some event ↔
          ∃ entry, c.objects.current? event.sender event.generation = some entry ∧
            entry.data.isSome = true) ∧
      (∀ d, s.delivery? = some d → (s.popped queue).getLast? = some d.event) ∧
      (∀ events, c.check = .ok () → c.queues.get? queue = some events →
        (events ≠ [] → s.popped queue ≠ []) ∧
        (s.delivery? = none → s.popped queue = events)) := by
  intro steps c
  obtain ⟨bytes, fds⟩ := Connection.answered_eq_handled (δ := δ) protocol actions
  refine ⟨?_, bytes, fds, (ledger_run protocol actions).account, ?_⟩
  · intro s mem outcomes reads
    obtain ⟨_, action, _, _, rfl⟩ := Connection.exists_of_mem_trace mem
    obtain rfl : action = .read outcomes := reads
    exact Connection.answers_of_read _ outcomes
  intro queue s
  obtain ⟨delivered, only⟩ := c.popped_delivered_iff queue
  refine ⟨?_, ?_, ?_⟩
  · intro event mem
    exact (delivered event mem).trans ObjectTable.delivery?_isSome
  · intro d isDelivery
    obtain ⟨_, dropped, popped⟩ := only d isDelivery
    rw [popped, List.getLast?_concat]
  · intro events usable exist
    exact Connection.popped_of_waiting usable exist

end Wayland.Client
