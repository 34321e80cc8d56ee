import Wayland.Proofs.Client.Announcements

/-! # Threads that share a connection

Threads take turns with a connection.  A thread that dispatches a queue is handed an event, and then
it calls the handler; the connection is free for others in between.  So handlers need not be called
in the order in which the events were handed out, if two threads dispatch the same queue.

A thread that has an event in hand does nothing else before it has called the handler
(`Crew.Orderly`).  So if a handler for what a new object has sent is called before that for the
announcement of the object, then by another thread, which was handed its event from the same queue
(`Announcement.overtaken`).
-/

namespace Wayland.Client

variable {δ : Type}

/-! ## Turns -/

/-- An event that a thread was handed. -/
structure Taken (δ : Type) where
  thread : Nat
  queue : QueueId
  delivery : Delivery δ
  /-- How many steps the connection had taken before. -/
  moment : Nat

/-- What a thread does in one go: an operation of the connection, or to call the handler for the
    event that it has in hand. -/
inductive Crew.Turn (δ : Type)
  | acts (thread : Nat) (action : Action δ)
  | calls (thread : Nat)

/-- A connection, what its threads have in hand, and the events whose handlers they have called. -/
structure Crew (δ : Type) where
  connection : Connection δ
  past : List (Step δ) := []
  hand : Nat → Option (Taken δ) := fun _ => none
  called : List (Taken δ) := []

/-- The event that a step hands to the thread that takes it. -/
def Step.taken? (s : Step δ) (thread moment : Nat) : Option (Taken δ) :=
  match s.action with
  | .next queue => s.delivery?.map fun delivery => { thread, queue, delivery, moment }
  | _ => none

theorem Step.taken?_some {s : Step δ} {thread moment : Nat} {e : Taken δ}
    (taken : s.taken? thread moment = some e) :
    e.thread = thread ∧ e.moment = moment ∧ s.action = .next e.queue ∧
      s.delivery? = some e.delivery := by
  unfold Step.taken? at taken
  split at taken
  next queue asks =>
    obtain ⟨d, delivered, rfl⟩ := Option.map_eq_some_iff.1 taken
    exact ⟨rfl, rfl, asks, delivered⟩
  · cases taken

namespace Crew

def start (protocol : Protocol) : Crew δ := { connection := Connection.initial protocol }

def put (w : Crew δ) (thread : Nat) (e : Option (Taken δ)) : Nat → Option (Taken δ) :=
  fun other => if other = thread then e else w.hand other

/-- With an event in hand, a thread does nothing else than to call the handler. -/
def turn (w : Crew δ) : Turn δ → Crew δ
  | .acts thread action =>
    match w.hand thread with
    | some _ => w
    | none =>
      let s := w.connection.step action
      { w with
        connection := s.after
        past := w.past ++ [s]
        hand := w.put thread (s.taken? thread w.past.length) }
  | .calls thread =>
    match w.hand thread with
    | some e => { w with hand := w.put thread none, called := w.called ++ [e] }
    | none => w

def run (w : Crew δ) (turns : List (Turn δ)) : Crew δ := turns.foldl turn w

/-- An event that a thread has been handed. -/
def Has (w : Crew δ) (e : Taken δ) : Prop := e ∈ w.called ∨ ∃ thread, w.hand thread = some e

/-- What threads have been handed came out of the connection, and what a thread has in hand is the
    last that it was handed. -/
structure Orderly (w : Crew δ) : Prop where
  handed : ∀ e, w.Has e → ∃ s, w.past[e.moment]? = some s ∧ s.action = .next e.queue ∧
    s.delivery? = some e.delivery
  owner : ∀ thread e, w.hand thread = some e → e.thread = thread
  last : ∀ thread e, w.hand thread = some e → ∀ call ∈ w.called, call.thread = thread →
    call.moment < e.moment

theorem start_orderly (protocol : Protocol) : (start protocol : Crew δ).Orderly where
  handed := by simp [Has, start]
  owner := by simp [start]
  last := by simp [start]

variable {w : Crew δ}

theorem put_some {thread other : Nat} {e : Option (Taken δ)} {e' : Taken δ}
    (found : w.put thread e other = some e') :
    other = thread ∧ e = some e' ∨ other ≠ thread ∧ w.hand other = some e' := by
  unfold put at found
  split at found
  next same => exact .inl ⟨same, found⟩
  next differs => exact .inr ⟨differs, found⟩

namespace Orderly

theorem moment_lt (orderly : w.Orderly) {e : Taken δ} (has : w.Has e) :
    e.moment < w.past.length := by
  obtain ⟨_, found, _⟩ := orderly.handed e has
  exact (List.getElem?_eq_some_iff.1 found).1

theorem acts (orderly : w.Orderly) (thread : Nat) (s : Step δ) (c : Connection δ) :
    Orderly { w with connection := c, past := w.past ++ [s],
                     hand := w.put thread (s.taken? thread w.past.length) } where
  handed := by
    intro e has
    have old (before : w.Has e) : ∃ s', (w.past ++ [s])[e.moment]? = some s' ∧
        s'.action = .next e.queue ∧ s'.delivery? = some e.delivery := by
      obtain ⟨s', found, isNext⟩ := orderly.handed e before
      refine ⟨s', ?_, isNext⟩
      rw [List.getElem?_append_left (orderly.moment_lt before), found]
    obtain called | ⟨other, held⟩ := has
    · exact old (.inl called)
    · obtain ⟨_, new⟩ | ⟨_, before⟩ := put_some held
      · obtain ⟨_, moment, isNext⟩ := Step.taken?_some new
        exact ⟨s, by rw [moment, List.getElem?_concat_length], isNext⟩
      · exact old (.inr ⟨other, before⟩)
  owner := by
    intro other e held
    obtain ⟨rfl, new⟩ | ⟨_, before⟩ := put_some held
    · exact (Step.taken?_some new).1
    · exact orderly.owner other e before
  last := by
    intro other e held call called mine
    obtain ⟨_, new⟩ | ⟨_, before⟩ := put_some held
    · rw [(Step.taken?_some new).2.1]
      exact orderly.moment_lt (.inl called)
    · exact orderly.last other e before call called mine

theorem calls (orderly : w.Orderly) {thread : Nat} {e : Taken δ} (held : w.hand thread = some e) :
    Orderly { w with hand := w.put thread none, called := w.called ++ [e] } where
  handed := by
    intro e' has
    refine orderly.handed e' ?_
    obtain called | ⟨other, held'⟩ := has
    · obtain before | rfl : e' ∈ w.called ∨ e' = e := by simpa using called
      · exact .inl before
      · exact .inr ⟨thread, held⟩
    · obtain ⟨_, nothing⟩ | ⟨_, before⟩ := put_some held'
      · cases nothing
      · exact .inr ⟨other, before⟩
  owner := by
    intro other e' held'
    obtain ⟨_, nothing⟩ | ⟨_, before⟩ := put_some held'
    · cases nothing
    · exact orderly.owner other e' before
  last := by
    intro other e' held' call called mine
    obtain ⟨_, nothing⟩ | ⟨differs, before⟩ := put_some held'
    · cases nothing
    · obtain old | rfl : call ∈ w.called ∨ call = e := by simpa using called
      · exact orderly.last other e' before call old mine
      · exact absurd (mine.symm.trans (orderly.owner thread call held)) differs

theorem turn (orderly : w.Orderly) (turn : Turn δ) : (w.turn turn).Orderly := by
  cases turn with
  | acts thread action =>
    rw [Crew.turn]
    split
    · exact orderly
    · exact orderly.acts thread _ _
  | calls thread =>
    rw [Crew.turn]
    split
    next e held => exact orderly.calls held
    · exact orderly

end Orderly

theorem run_orderly (protocol : Protocol) (turns : List (Turn δ)) :
    ((start protocol).run turns).Orderly := by
  suffices ∀ w : Crew δ, w.Orderly → (w.run turns).Orderly from this _ (start_orderly protocol)
  induction turns with
  | nil => exact fun _ => id
  | cons turn turns ih => exact fun w orderly => ih _ (orderly.turn turn)

end Crew

/-! ## Announcements and threads -/

theorem split_at_moment {steps : List (Step δ)} {moment : Nat} {s : Step δ}
    (found : steps[moment]? = some s) :
    steps = steps.take moment ++ s :: steps.drop (moment + 1) ∧
      steps.take (moment + 1) = steps.take moment ++ [s] := by
  have upTo : steps.take (moment + 1) = steps.take moment ++ [s] := by
    rw [List.take_add_one, found]
    rfl
  refine ⟨?_, upTo⟩
  rw [List.append_cons, ← upTo, List.take_append_drop]

theorem length_poppedFrom_le (queue : QueueId) (steps : List (Step δ)) {i j : Nat}
    (before : i ≤ j) :
    (poppedFrom queue (steps.take i)).length ≤ (poppedFrom queue (steps.take j)).length := by
  obtain ⟨more, same⟩ := List.take_prefix_take_left (l := steps) before
  rw [← same, poppedFrom_append, List.length_append]
  exact Nat.le_add_right _ _

section

variable {protocol : Protocol} {actions : List (Action δ)} {done rest : List (Step δ)} {s : Step δ}
  {queue : QueueId} {d : Delivery δ}
  (split : (Connection.initial protocol).trace actions = done ++ s :: rest)
  (asks : s.action = .next queue) (delivers : s.delivery? = some d)

include split asks delivers

/-- An event that is handed out leaves the queue. -/
theorem length_poppedFrom_lt :
    (poppedFrom queue done).length < (poppedFrom queue (done ++ [s])).length := by
  obtain ⟨before, action, after, _, _, rfl, _⟩ := Connection.exists_of_trace_eq split
  obtain rfl : action = .next queue := asks
  obtain ⟨dropped, _, _, popped⟩ := Connection.popped_of_delivery delivers
  rw [poppedFrom_append, List.length_append]
  simp [poppedFrom, popped]

/-- What is handed out has been added to the queue before. -/
theorem pushed_of_delivery :
    d.event ∈ pushedTo queue ((Connection.initial protocol).trace actions) := by
  obtain ⟨before, action, after, rfl, rfl, rfl, rfl⟩ := Connection.exists_of_trace_eq split
  obtain rfl : action = .next queue := asks
  obtain ⟨events, exist, mem⟩ := Connection.delivered_waiting delivers
  rw [Connection.trace_append, pushedTo_append]
  exact List.mem_append_left _ ((ledger_run protocol before).pushed exist d.event mem)

end

namespace Announcement

open Connection (initial)

variable {s : Step δ} (a : Announcement s) {protocol : Protocol} {actions : List (Action δ)}
  {past future : List (Step δ)} {new : Entry δ}

/-- A thread has the announcement in hand.  If a handler has been called for something that the
    object sent, then by another thread, which was handed that later and from the same queue. -/
theorem overtaken (taken : (initial protocol).trace actions = past ++ s :: future)
    (isNew : a.message.after.objects.live? a.id = some new)
    (later : a.message.before.objects.nextGeneration ≤ new.generation)
    (queue : new.queue = a.queue) (unmoved : ∀ t ∈ future, ¬ t.Redirects a.id new.generation)
    (exist : ((initial protocol).run actions).queues.contains a.queue = true)
    {turns : List (Crew.Turn δ)}
    (steps : ((Crew.start protocol).run turns).past = (initial protocol).trace actions)
    {thread : Nat} {e : Taken δ} (held : ((Crew.start protocol).run turns).hand thread = some e)
    (asked : e.queue = a.queue)
    (place : (poppedFrom a.queue (((initial protocol).trace actions).take (e.moment + 1))).length =
      (a.ahead past).length + 1) :
    e.delivery.event = a.event ∧ ∀ call ∈ ((Crew.start protocol).run turns).called,
      call.delivery.event.IsFrom a.id new.generation →
        call.queue = a.queue ∧ call.thread ≠ thread ∧ e.moment < call.moment := by
  have orderly := Crew.run_orderly protocol turns
  obtain ⟨u, found, asks, delivers⟩ := orderly.handed e (.inr ⟨thread, held⟩)
  rw [steps] at found
  obtain ⟨split, upTo⟩ := split_at_moment found
  rw [asked] at asks
  rw [upTo] at place
  have isEvent : e.delivery.event = a.event := a.event_of_place taken split asks delivers place
  refine ⟨isEvent, fun call called isFrom => ?_⟩
  obtain ⟨u', found', asks', delivers'⟩ := orderly.handed call (.inl called)
  rw [steps] at found'
  obtain ⟨split', upTo'⟩ := split_at_moment found'
  have left := a.left_of_delivered taken isNew later queue unmoved exist split' delivers' isFrom
  have after : e.moment < call.moment := by
    refine Nat.lt_of_not_le fun early => ?_
    obtain before | same := Nat.lt_or_eq_of_le early
    · -- The announcement left the queue in the later step, and with it at least one event.
      have fewer := length_poppedFrom_le a.queue ((initial protocol).trace actions)
        (Nat.succ_le_of_lt before)
      have leaves := length_poppedFrom_lt split asks delivers
      rw [upTo'] at fewer
      omega
    · rw [same, found, Option.some.injEq] at found'
      subst found'
      have both := Option.some.inj (delivers.symm.trans delivers')
      rw [← both, isEvent] at isFrom
      exact a.event_not_from taken later isFrom
  refine ⟨?_, fun mine => ?_, after⟩
  · exact a.queue_of_added taken isNew later queue unmoved exist
      (pushed_of_delivery split' asks' delivers') isFrom
  · exact absurd (orderly.last thread e held call called mine) (Nat.lt_asymm after)

end Announcement

end Wayland.Client
