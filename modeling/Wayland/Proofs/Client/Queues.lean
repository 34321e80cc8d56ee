import Wayland.Proofs.Client.Incoming
import Wayland.Proofs.Client.TableHistory

/-! # Objects and their queues

Every live object names the queue of its events.  `Housed` says that all these queues exist, and
the default queue with them.  Each operation uses only queues that were used before, or one that it
has found to exist (the `UsesQueue` lemmas), so `Housed` holds as long as a connection is open.

What an operation does to queues is said by `get?` alone: a queue has events or does not exist.
-/

namespace Wayland.Client

variable {δ : Type}

/-! ## What operations do to queues -/

namespace EventQueues

variable {q : EventQueues} {queue x : QueueId} {events : List QueuedEvent}

theorem get?_initial (x : QueueId) :
    initial.get? x = if x = QueueId.default then some [] else none := by
  simp [initial, get?, Std.ExtTreeMap.getElem?_insert, @eq_comm _ x]

theorem get?_create (q : EventQueues) (x : QueueId) :
    q.create.2.get? x = if x = q.next then some [] else q.get? x := by
  simp [create, get?, Std.ExtTreeMap.getElem?_insert, @eq_comm _ x]

theorem get?_remove (q : EventQueues) (queue x : QueueId) :
    (q.remove queue).2.get? x =
      if x = queue ∧ queue ≠ QueueId.default then none else q.get? x := by
  unfold remove
  split
  next kept => simp [kept]
  next gone => simp [get?, Std.ExtTreeMap.getElem?_erase, gone, @eq_comm _ x]

theorem get?_set (q : EventQueues) (queue x : QueueId) (events : List QueuedEvent) :
    (q.set queue events).get? x = if x = queue then some events else q.get? x := by
  simp [set, get?, Std.ExtTreeMap.getElem?_insert, @eq_comm _ x]

theorem push_of_get? (found : q.get? queue = some events) (event : QueuedEvent) :
    (q.push queue event).value = q.set queue (events ++ [event]) := by
  unfold push
  rw [found]
  rfl

/-- An event for a queue that does not exist is lost. -/
theorem get?_push (q : EventQueues) (queue x : QueueId) (event : QueuedEvent) :
    (q.push queue event).value.get? x =
      if x = queue then (q.get? x).map (· ++ [event]) else q.get? x := by
  cases found : q.get? queue with
  | none =>
    have lost : (q.push queue event).value = q := by
      unfold push
      rw [found]
      rfl
    rw [lost]
    split
    next same => rw [same, found]; rfl
    · rfl
  | some events =>
    rw [push_of_get? found, get?_set]
    split
    next same => rw [same, found]; rfl
    · rfl

theorem get?_clear (q : EventQueues) (x : QueueId) : q.clear.get? x = none := by
  simp [clear, get?]

@[simp] theorem contains_push (event : QueuedEvent) :
    (q.push queue event).value.contains x = q.contains x := by
  unfold contains
  rw [get?_push]
  split <;> simp

@[simp] theorem next_push (event : QueuedEvent) : (q.push queue event).value.next = q.next := by
  unfold push
  split <;> rfl

theorem contains_create (old : q.contains x = true) : q.create.2.contains x = true := by
  unfold contains at old ⊢
  rw [get?_create]
  split
  · rfl
  · exact old

theorem contains_set (exist : q.contains x = true) (events : List QueuedEvent) :
    (q.set queue events).contains x = true := by
  unfold contains at exist ⊢
  rw [get?_set]
  split
  · rfl
  · exact exist

theorem contains_remove (old : q.contains x = true) (other : x ≠ queue ∨ x = QueueId.default) :
    (q.remove queue).2.contains x = true := by
  unfold contains at old ⊢
  rw [get?_remove, if_neg]
  · exact old
  · rintro ⟨rfl, removable⟩
    exact other.elim (· rfl) removable

end EventQueues

/-! ## Which queues objects use -/

namespace ObjectTable

/-- The events of some live object go to the queue. -/
def UsesQueue (t : ObjectTable δ) (queue : QueueId) : Prop :=
  ∃ id entry, t.live? id = some entry ∧ entry.queue = queue

variable {t t' : ObjectTable δ} {queue : QueueId} {id : ObjectId}

theorem UsesQueue.of_current {generation : Generation} {entry : Entry δ}
    (found : t.current? id generation = some entry) : t.UsesQueue entry.queue := by
  obtain ⟨present, live, _⟩ := current?_some.1 found
  exact ⟨id, entry, live?_some.2 ⟨present, live⟩, rfl⟩

theorem UsesQueue.of_insert {entry : Entry δ} (uses : t'.UsesQueue queue)
    (entries : t'.entries = t.entries.insert id entry) :
    t.UsesQueue queue ∨ entry.queue = queue := by
  obtain ⟨x, found, live, same⟩ := uses
  obtain ⟨lookup, alive⟩ := live?_some.1 live
  rw [get?_of_insert entries] at lookup
  split at lookup
  · cases lookup
    exact .inr same
  · exact .inl ⟨x, found, live?_some.2 ⟨lookup, alive⟩, same⟩

/-- An entry that is replaced by one of the same queue, or by a dead one. -/
theorem UsesQueue.of_put {entry entry' : Entry δ} (uses : (t.put id entry').UsesQueue queue)
    (found : t.get? id = some entry)
    (kept : entry'.life = .live → entry.life = .live ∧ entry'.queue = entry.queue) :
    t.UsesQueue queue := by
  obtain ⟨x, changed, live, rfl⟩ := uses
  obtain ⟨lookup, alive⟩ := live?_some.1 live
  rw [get?_put] at lookup
  split at lookup
  next same =>
    cases lookup
    obtain ⟨before, queue⟩ := kept alive
    exact ⟨id, entry, live?_some.2 ⟨found, before⟩, queue.symm⟩
  · exact ⟨x, changed, live?_some.2 ⟨lookup, alive⟩, rfl⟩

theorem UsesQueue.of_remove (uses : (t.remove id).UsesQueue queue) : t.UsesQueue queue := by
  obtain ⟨x, entry, live, same⟩ := uses
  obtain ⟨lookup, alive⟩ := live?_some.1 live
  rw [get?_remove] at lookup
  split at lookup
  · cases lookup
  · exact ⟨x, entry, live?_some.2 ⟨lookup, alive⟩, same⟩

theorem UsesQueue.of_markAnnounced (uses : (t.markAnnounced id).UsesQueue queue) :
    t.UsesQueue queue := by
  obtain ⟨x, entry, live, same⟩ := uses
  obtain ⟨lookup, alive⟩ := live?_some.1 live
  rw [get?_markAnnounced] at lookup
  split at lookup
  · obtain ⟨before, found, rfl⟩ := Option.map_eq_some_iff.1 lookup
    exact ⟨x, before, live?_some.2 ⟨found, alive⟩, same⟩
  · exact ⟨x, entry, live?_some.2 ⟨lookup, alive⟩, same⟩

theorem UsesQueue.of_announcements (ids : List ObjectId)
    (uses : (ids.foldl markAnnounced t).UsesQueue queue) : t.UsesQueue queue := by
  induction ids generalizing t with
  | nil => exact uses
  | cons id ids ih => exact (ih uses).of_markAnnounced

theorem UsesQueue.of_release {generation : Generation}
    (uses : (t.release id generation).value.UsesQueue queue) : t.UsesQueue queue := by
  obtain same | ⟨_, entry, found, _, _, ⟨_, _, _, value⟩ | ⟨_, value⟩⟩ :=
    release_cases t id generation
  · rwa [same] at uses
  · rw [value] at uses
    exact uses.of_put found (by simp)
  · rw [value] at uses
    exact uses.of_remove

theorem UsesQueue.of_deleteId (uses : (t.deleteId id).value.UsesQueue queue) :
    t.UsesQueue queue := by
  obtain ⟨_, value⟩ | ⟨entry, _, _, value⟩ | ⟨entry, found, live, value⟩ := deleteId_cases t id
  · rwa [value] at uses
  · rw [value] at uses
    exact uses.of_remove
  · rw [value] at uses
    exact uses.of_put found fun _ => ⟨live, rfl⟩

theorem UsesQueue.of_reassignQueue {old new : QueueId}
    (uses : (t.reassignQueue old new).UsesQueue queue) :
    t.UsesQueue queue ∧ queue ≠ old ∨ queue = new := by
  obtain ⟨x, entry, live, rfl⟩ := uses
  obtain ⟨lookup, alive⟩ := live?_some.1 live
  rw [get?_reassignQueue] at lookup
  obtain ⟨before, found, rfl⟩ := Option.map_eq_some_iff.1 lookup
  by_cases moved : (before.queue = old && before.life = .live) = true
  · right
    rw [if_pos moved]
  · left
    rw [if_neg moved] at alive ⊢
    exact ⟨⟨x, before, live?_some.2 ⟨found, alive⟩, rfl⟩, by simpa [alive] using moved⟩

end ObjectTable

namespace Connection

open ObjectTable (UsesQueue)

theorem enterNewObjects_uses {protocol : Protocol} {sender : ObjectId} {entry : Entry δ}
    {spec : MessageSpec} {index : Nat} {args : List Argument} {t : ObjectTable δ}
    {queue : QueueId}
    (uses : (enterNewObjects protocol sender entry spec index args t).value.2.UsesQueue queue) :
    t.UsesQueue queue ∨ entry.queue = queue := by
  induction args generalizing index t with
  | nil => exact .inl uses
  | cons arg args ih =>
    unfold enterNewObjects at uses
    split at uses
    · exact ih uses
    · split at uses
      · exact ih uses
      · split at uses
        · exact .inl uses
        next inserted =>
          obtain ⟨_, _, rfl⟩ := ObjectTable.insertServer_ok inserted
          obtain entered | same := ih uses
          · obtain old | same := entered.of_insert rfl
            · exact .inl old
            · exact .inr same
          · exact .inr same

/-! ## Every live object has a queue -/

/-- All queues that live objects use exist, and so does the default queue. -/
structure Housed (c : Connection δ) : Prop where
  default : c.queues.contains QueueId.default = true
  used : ∀ queue, c.objects.UsesQueue queue → c.queues.contains queue = true

variable {c c' d : Connection δ}

theorem initial_housed (protocol : Protocol) : (initial protocol : Connection δ).Housed where
  default := by simp [initial, EventQueues.contains, EventQueues.get?_initial]
  used := by
    rintro queue ⟨id, entry, live, rfl⟩
    obtain ⟨found, _⟩ := ObjectTable.live?_some.1 live
    rw [initial, ObjectTable.get?_initial] at found
    split at found
    · cases found
      simp [initial, EventQueues.contains, EventQueues.get?_initial]
    · cases found

/-- Operations that leave all queues in place. -/
theorem Housed.amend (housed : c.Housed)
    (kept : ∀ queue, c.queues.contains queue = true → c'.queues.contains queue = true)
    (uses : ∀ queue, c'.objects.UsesQueue queue →
      c.objects.UsesQueue queue ∨ c.queues.contains queue = true) : c'.Housed where
  default := kept _ housed.default
  used queue used := kept queue ((uses queue used).elim (housed.used queue) id)

theorem Handles.housed {header : Wire.Header} {body : Wire.Bytes} {fault : Option FatalError}
    (handles : Handles c header body fault c') (housed : c.Housed) : c'.Housed := by
  -- The queue of the objects that an event creates is that of its sender, which is alive.
  have entered {entry : Entry δ} {spec : MessageSpec} {args : List Argument}
      {result : Option NumberConflict} {objects : ObjectTable δ}
      (found : c.objects.get? header.object = some entry) (live : entry.life = .live)
      (entered : (enterNewObjects c.protocol header.object entry spec 0 args c.objects).value =
        (result, objects)) (queue : QueueId) (uses : objects.UsesQueue queue) :
      c.objects.UsesQueue queue ∨ c.queues.contains queue = true := by
    have objects_eq : objects = _ := congrArg Prod.snd entered.symm
    rw [objects_eq] at uses
    obtain old | rfl := enterNewObjects_uses uses
    · exact .inl old
    · exact .inl ⟨header.object, entry, ObjectTable.live?_some.2 ⟨found, live⟩, rfl⟩
  cases handles with
  | deleteId => exact housed.amend (fun _ exist => exist) fun _ uses => .inl uses.of_deleteId
  | conflict _ found _ live _ result =>
    exact housed.amend (fun _ exist => exist) (entered found live result)
  | queued _ found _ live _ result =>
    refine housed.amend (fun _ exist => ?_) (entered found live result)
    rw [EventQueues.contains_push]
    exact exist
  | _ => exact ⟨housed.default, housed.used⟩

theorem Absorbs.housed (run : Absorbs c d) (housed : c.Housed) : d.Housed := by
  induction run with
  | incomplete => exact housed
  | malformed =>
    rw [fail_value]
    exact ⟨housed.default, housed.used⟩
  | fault _ handled =>
    have after := handled.housed ⟨housed.default, housed.used⟩
    rw [fail_value]
    exact ⟨after.default, after.used⟩
  | message _ handled _ ih => exact ih (handled.housed ⟨housed.default, housed.used⟩)

theorem readRound_housed (housed : c.Housed) (outcomes : List ReadOutcome) :
    (c.readRound outcomes).value.2.2.Housed := by
  cases usable : c.check with
  | error cause =>
    rw [readRound_of_error usable]
    exact ⟨housed.default, housed.used⟩
  | ok _ =>
    obtain ⟨_, d, _, absorbs, value⟩ := readSocket_value c outcomes
    have after := absorbs.housed ⟨housed.default, housed.used⟩
    rw [readRound_of_ok usable, value]
    exact ⟨after.default, after.used⟩

end Connection

theorem Step.Effect.housed {s : Step δ} (effect : s.Effect) (housed : s.before.Housed)
    (isOpen : s.after.closed = false) : s.after.Housed := by
  cases effect with
  | create _ found inserted =>
    obtain ⟨_, _, _, rfl⟩ := ObjectTable.insertClient_ok inserted
    have inherited := ObjectTable.UsesQueue.of_current found
    refine housed.amend (fun _ exist => exist) fun queue uses => ?_
    obtain old | rfl := uses.of_insert rfl
    · exact .inl old
    · exact .inl inherited
  | adopt _ found =>
    obtain ⟨present, live⟩ := ObjectTable.live?_some.1 found
    exact housed.amend (fun _ exist => exist) fun _ uses =>
      .inl (uses.of_put present fun _ => ⟨live, rfl⟩)
  | release => exact housed.amend (fun _ exist => exist) fun _ uses => .inl uses.of_release
  | @request _ _ _ args final _ _ _ _ _ _ _ _ _ _ heard released =>
    subst heard released
    refine housed.amend (fun _ exist => exist) fun _ uses => .inl ?_
    cases final with
    | true => exact (ObjectTable.UsesQueue.of_release uses).of_announcements
    | false => exact ObjectTable.UsesQueue.of_announcements _ uses
  | attach _ found =>
    obtain ⟨present, live, _⟩ := ObjectTable.current?_some.1 found
    exact housed.amend (fun _ exist => exist) fun _ uses =>
      .inl (uses.of_put present fun _ => ⟨live, rfl⟩)
  | setQueue _ exist =>
    refine housed.amend (fun _ exist => exist) fun queue uses => ?_
    obtain old | rfl := uses.of_insert rfl
    · exact .inl old
    · exact .inr exist
  | createQueue =>
    exact housed.amend (fun _ exist => EventQueues.contains_create exist) fun _ uses => .inl uses
  | destroyQueue =>
    refine ⟨EventQueues.contains_remove housed.default (.inr rfl), fun queue uses => ?_⟩
    obtain ⟨old, other⟩ | rfl := uses.of_reassignQueue
    · exact EventQueues.contains_remove (housed.used queue old) (.inl other)
    · exact EventQueues.contains_remove housed.default (.inr rfl)
  | @read c _ _ gate =>
    exact Connection.readRound_housed (c := { c with gate }) ⟨housed.default, housed.used⟩ _
  | next =>
    exact housed.amend (fun _ exist => EventQueues.contains_set exist _) fun _ uses => .inl uses
  | close => cases isOpen
  | _ => exact ⟨housed.default, housed.used⟩

/-- As long as a connection is open, the queue of every live object exists. -/
theorem Connection.run_housed (protocol : Protocol) (actions : List (Action δ))
    (isOpen : ((initial protocol : Connection δ).run actions).closed = false) :
    ((initial protocol : Connection δ).run actions).Housed := by
  refine @trace_invariant δ Unit (fun _ => []) (fun _ c => c.closed = false → c.Housed) ?_ actions
    [] _ (fun _ => initial_housed protocol) isOpen
  intro _ c action holds stillOpen
  have effect := c.step_effect action
  exact effect.housed (holds (effect.open_before stillOpen)) stillOpen

end Wayland.Client
