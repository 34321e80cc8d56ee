import Wayland.Proofs.Client.Lineage
import Wayland.Proofs.Client.QueueNumbers

/-! # Objects are announced before they are heard

An event may create objects of the compositor.  Such an object sends its events to the queue to
which the event went that created it.  Nothing but a redirection of the object itself and the end
of the queue changes this (`Stations`), so what the object sends waits behind the event that
announced it, whatever becomes of the sender of that event in the meantime.

Two facts make up the proof: before the announcement no event has the object's generation, since
generations are new when they are given out, and after it all events of the object go to the same
queue.  The rest is the order of the queue (`ledger_run`).  So as long as the announcement waits,
all that the object has sent waits behind it (`Announcement.waiting`), and when it is handed over,
nothing of that has been handed over before (`Announcement.handed_first`).
-/

namespace Wayland.Client

variable {δ : Type}

/-! ## The queue of one object -/

namespace ObjectTable

/-- The object has been created, and as long as it is alive its events go to the queue. -/
structure Stations (t : ObjectTable δ) (id : ObjectId) (g : Generation) (queue : QueueId) :
    Prop where
  born : g < t.nextGeneration
  queue : ∀ entry, t.current? id g = some entry → entry.queue = queue

namespace Stations

variable {t t' : ObjectTable δ} {id x : ObjectId} {g : Generation} {queue : QueueId}

theorem amend (stations : t.Stations id g queue) (next : t'.nextGeneration = t.nextGeneration)
    (kept : ∀ entry', t'.current? id g = some entry' →
      ∃ entry, t.current? id g = some entry ∧ entry'.queue = entry.queue) :
    t'.Stations id g queue where
  born := next ▸ stations.born
  queue := by
    intro entry' found
    obtain ⟨entry, before, same⟩ := kept entry' found
    rw [same, stations.queue entry before]

theorem put {entry entry' : Entry δ} (stations : t.Stations id g queue)
    (found : t.get? x = some entry) (life : entry'.life = .live → entry.life = .live)
    (generation : entry'.generation = entry.generation)
    (unmoved : x = id → entry.generation = g → entry'.queue = entry.queue) :
    (t.put x entry').Stations id g queue := by
  refine stations.amend rfl ?_
  intro changed current
  obtain ⟨lookup, live, same⟩ := current?_some.1 current
  rw [get?_put] at lookup
  split at lookup
  next isTarget =>
    cases lookup
    subst isTarget
    exact ⟨entry, current?_some.2 ⟨found, life live, generation ▸ same⟩,
      unmoved rfl (generation ▸ same)⟩
  · exact ⟨changed, current?_some.2 ⟨lookup, live, same⟩, rfl⟩

theorem remove (stations : t.Stations id g queue) : (t.remove x).Stations id g queue := by
  refine stations.amend rfl ?_
  intro entry current
  obtain ⟨lookup, live, same⟩ := current?_some.1 current
  rw [get?_remove] at lookup
  split at lookup
  · cases lookup
  · exact ⟨entry, current?_some.2 ⟨lookup, live, same⟩, rfl⟩

/-- A new object has another generation. -/
theorem insert {entry : Entry δ} (stations : t.Stations id g queue)
    (entries : t'.entries = t.entries.insert x entry)
    (next : t'.nextGeneration = t.nextGeneration + 1)
    (generation : entry.generation = t.nextGeneration) : t'.Stations id g queue := by
  refine ⟨next ▸ Nat.lt_succ_of_lt stations.born, ?_⟩
  intro found current
  obtain ⟨lookup, live, same⟩ := current?_some.1 current
  rw [get?_of_insert entries] at lookup
  split at lookup
  · cases lookup
    exact absurd stations.born (Nat.not_lt.2 (Nat.le_of_eq (generation.symm.trans same)))
  · exact stations.queue found (current?_some.2 ⟨lookup, live, same⟩)

theorem announcements (ids : List ObjectId) (stations : t.Stations id g queue) :
    (ids.foldl markAnnounced t).Stations id g queue := by
  induction ids generalizing t with
  | nil => exact stations
  | cons x ids ih =>
    refine ih (stations.amend rfl ?_)
    intro entry' current
    obtain ⟨lookup, live, same⟩ := current?_some.1 current
    rw [get?_markAnnounced] at lookup
    split at lookup
    · obtain ⟨entry, found, rfl⟩ := Option.map_eq_some_iff.1 lookup
      exact ⟨entry, current?_some.2 ⟨found, live, same⟩, rfl⟩
    · exact ⟨entry', current?_some.2 ⟨lookup, live, same⟩, rfl⟩

theorem release (generation : Generation) (stations : t.Stations id g queue) :
    (t.release x generation).value.Stations id g queue := by
  obtain same | ⟨_, entry, found, _, _, ⟨_, _, _, value⟩ | ⟨_, value⟩⟩ :=
    release_cases t x generation
  · rwa [same]
  · rw [value]
    exact stations.put found nofun rfl fun _ _ => rfl
  · rw [value]
    exact stations.remove

theorem deleteId (stations : t.Stations id g queue) :
    (t.deleteId x).value.Stations id g queue := by
  obtain ⟨_, value⟩ | ⟨entry, _, _, value⟩ | ⟨entry, found, live, value⟩ := deleteId_cases t x
  · rwa [value]
  · rw [value]
    exact stations.remove
  · rw [value]
    exact stations.put found (fun live => live) rfl fun _ _ => rfl

theorem reassignQueue {old new : QueueId} (stations : t.Stations id g queue)
    (other : queue = old → queue = new) : (t.reassignQueue old new).Stations id g queue := by
  refine ⟨stations.born, ?_⟩
  intro entry' current
  obtain ⟨lookup, live, same⟩ := current?_some.1 current
  rw [get?_reassignQueue] at lookup
  obtain ⟨entry, found, rfl⟩ := Option.map_eq_some_iff.1 lookup
  by_cases moved : (entry.queue = old && entry.life = .live) = true
  · rw [if_pos moved] at live same ⊢
    have before := stations.queue entry (current?_some.2 ⟨found, live, same⟩)
    simp only [Bool.and_eq_true, decide_eq_true_eq] at moved
    exact (other (before.symm.trans moved.1)).symm
  · rw [if_neg moved] at live same ⊢
    exact stations.queue entry (current?_some.2 ⟨found, live, same⟩)

theorem clear (stations : t.Stations id g queue) : t.clear.Stations id g queue := by
  refine stations.amend rfl ?_
  intro entry current
  simp [current?, live?, get?, ObjectTable.clear] at current

end Stations

end ObjectTable

/-! ## Messages -/

namespace Connection

variable {id : ObjectId} {g : Generation} {queue : QueueId}

theorem enterNewObjects_stations {protocol : Protocol} {sender : ObjectId} {entry : Entry δ}
    {spec : MessageSpec} {index : Nat} {args : List Argument} {t t' : ObjectTable δ}
    {result : Option NumberConflict} (stations : t.Stations id g queue)
    (entered : (enterNewObjects protocol sender entry spec index args t).value = (result, t')) :
    t'.Stations id g queue := by
  induction args generalizing index t with
  | nil =>
    cases entered
    exact stations
  | cons arg args ih =>
    unfold enterNewObjects at entered
    split at entered
    · exact ih stations entered
    · split at entered
      · exact ih stations entered
      · split at entered
        · cases entered
          exact stations
        next inserted =>
          obtain ⟨_, _, rfl⟩ := ObjectTable.insertServer_ok inserted
          exact ih (stations.insert rfl rfl rfl) entered

/-- All objects that an event names as new are there afterwards, unless a number is in the way.
    They are new, and they use the queue of the sender. -/
theorem enterNewObjects_enters {protocol : Protocol} {sender : ObjectId} {entry : Entry δ}
    {spec : MessageSpec} {index : Nat} {args : List Argument} {t t' : ObjectTable δ}
    (entered : (enterNewObjects protocol sender entry spec index args t).value = (none, t')) :
    (∀ x old, t.live? x = some old → t'.live? x = some old) ∧
    ∀ i interface, args[i]? = some (.newId id) →
      protocol.argInterface? spec (index + i) = some interface →
      ∃ new, t'.live? id = some new ∧ t.nextGeneration ≤ new.generation ∧
        new.interface = interface ∧ new.queue = entry.queue := by
  induction args generalizing index t with
  | nil =>
    cases entered
    exact ⟨fun _ _ live => live, by simp⟩
  | cons arg args ih =>
    -- An argument that creates nothing leaves all to those behind it.
    have skip (rest : (enterNewObjects protocol sender entry spec (index + 1) args t).value =
          (none, t'))
        (nothing : ∀ interface, arg = .newId id → protocol.argInterface? spec index ≠ some interface) :
        (∀ x old, t.live? x = some old → t'.live? x = some old) ∧
        ∀ i interface, (arg :: args)[i]? = some (.newId id) →
          protocol.argInterface? spec (index + i) = some interface →
          ∃ new, t'.live? id = some new ∧ t.nextGeneration ≤ new.generation ∧
            new.interface = interface ∧ new.queue = entry.queue := by
      obtain ⟨kept, others⟩ := ih rest
      refine ⟨kept, ?_⟩
      rintro (_ | i) interface isNew typed
      · exact absurd typed (nothing interface (by simpa using isNew))
      · exact others i interface (by simpa using isNew) (by rwa [Nat.add_right_comm, Nat.add_assoc])
    unfold enterNewObjects at entered
    split at entered
    next other =>
      refine skip entered ?_
      rintro _ rfl
      cases other
    next x isNew =>
      split at entered
      next untyped =>
        refine skip entered ?_
        rintro interface _ typed
        rw [untyped] at typed
        cases typed
      next interface typed =>
        split at entered
        · cases entered
        next inserted =>
          obtain ⟨_, unused, rfl⟩ := ObjectTable.insertServer_ok inserted
          obtain ⟨kept, others⟩ := ih entered
          refine ⟨?_, ?_⟩
          · intro y old live
            refine kept y old ?_
            obtain ⟨found, alive⟩ := ObjectTable.live?_some.1 live
            refine ObjectTable.live?_some.2 ⟨?_, alive⟩
            rw [ObjectTable.get?_of_insert rfl, if_neg, found]
            rintro rfl
            rw [live] at unused
            cases unused
          · rintro (_ | i) interface' isNew' typed'
            · obtain rfl : arg = .newId id := by simpa using isNew'
              cases isNew
              rw [Nat.add_zero, typed] at typed'
              cases typed'
              refine ⟨_, kept id _ (ObjectTable.live?_some.2
                ⟨(ObjectTable.get?_of_insert rfl id).trans (if_pos rfl), rfl⟩), Nat.le_refl _, ?_, ?_⟩
              · rfl
              · rfl
            · obtain ⟨new, live, later, rest⟩ := others i interface' (by simpa using isNew')
                (by rwa [Nat.add_right_comm, Nat.add_assoc])
              exact ⟨new, live, Nat.le_of_succ_le later, rest⟩

theorem Handles.stations {c c' : Connection δ} {header : Wire.Header} {body : Wire.Bytes}
    {fault : Option FatalError} (handles : Handles c header body fault c')
    (stations : c.objects.Stations id g queue) : c'.objects.Stations id g queue := by
  cases handles with
  | deleteId => exact stations.deleteId
  | conflict _ _ _ _ _ entered | queued _ _ _ _ _ entered =>
    exact enterNewObjects_stations stations entered
  | _ => exact stations

/-- What a message leaves behind holds of all that follow it in the same inbox, if messages keep
    it. -/
theorem handlings_after {K : ObjectTable δ → Prop}
    (message : ∀ h : Handling δ, K h.before.objects → K h.after.objects) {c : Connection δ}
    {h : Handling δ} {earlier later : List (Handling δ)}
    (split : c.handlings = earlier ++ h :: later) (holds : K h.after.objects) :
    (∀ h' ∈ later, K h'.before.objects) ∧ K c.absorb.value.objects := by
  refine absorb_invariant (I := fun past d => ∀ earlier later, past = earlier ++ h :: later →
    (∀ h' ∈ later, K h'.before.objects) ∧ K d.objects) ?_ ?_ (by simp) earlier later split
  · intro past last before earlier later split
    obtain rfl | ⟨front, end', rfl⟩ := List.eq_nil_or_concat later
    · -- The message itself comes last.
      obtain ⟨_, same⟩ := List.append_inj' split rfl
      cases same
      exact ⟨by simp, holds⟩
    · rw [List.concat_eq_append, ← List.cons_append, ← List.append_assoc] at split
      obtain ⟨split', same⟩ := List.append_inj' split rfl
      cases same
      obtain ⟨each, here⟩ := before earlier front split'
      refine ⟨?_, message last here⟩
      intro h' mem
      obtain old | rfl : h' ∈ front ∨ h' = last := by simpa using mem
      · exact each h' old
      · exact here
  · intro past d error before earlier later split
    rw [fail_value]
    exact before earlier later split

end Connection

theorem Step.Effect.handled_after {K : ObjectTable δ → Prop}
    (message : ∀ h : Handling δ, K h.before.objects → K h.after.objects) {s : Step δ}
    (effect : s.Effect) {h : Handling δ} {earlier later : List (Handling δ)}
    (split : s.handled = earlier ++ h :: later) (holds : K h.after.objects) :
    (∀ h' ∈ later, K h'.before.objects) ∧ K s.after.objects := by
  obtain ⟨nothing, _⟩ | ⟨nothing, _⟩ | ⟨_, _, _, _, _, handled, _, after⟩ := effect.arrival_cases
  · simp [nothing] at split
  · simp [nothing] at split
  · rw [handled] at split
    rw [after]
    exact Connection.handlings_after message split holds

/-- The message of an event that is added to a queue has entered the objects that it creates. -/
theorem Handling.entered_of_added {h : Handling δ} {queue : QueueId} {event : QueuedEvent}
    {sender : Entry δ} {spec : MessageSpec} (added : h.added? = some (queue, event))
    (live : h.before.objects.live? event.sender = some sender)
    (known : sender.interface.event? event.opcode = some spec) :
    (Connection.enterNewObjects h.before.protocol event.sender sender spec 0 event.args
      h.before.objects).value = (none, h.after.objects) := by
  have handles := h.handles
  simp only [added?, after] at added handles ⊢
  generalize h.outcome = outcome at added handles ⊢
  obtain ⟨fault, c⟩ := outcome
  split at added
  · cases added
  next clean =>
    simp only [Option.bind_eq_bind, Option.bind_eq_some_iff, Option.pure_def, Option.some.injEq,
      Prod.mk.injEq] at added
    obtain ⟨_, live', _, known', args, isArgs, _, rfl⟩ := added
    cases live.symm.trans live'
    cases known.symm.trans known'
    obtain ⟨found, alive⟩ := ObjectTable.live?_some.1 live
    have same {entry : Entry δ}
        (present : (h.before.withBytes h.rest).objects.get? h.header.object = some entry) :
        entry = sender := Option.some.inj (present.symm.trans found)
    -- No other outcome fits an object that is alive and a message without a fault.
    cases handles with
    | noDisplayEvent | badDisplayEvent | noEvent | badEvent | conflict => simp at clean
    | report display | deleteId display | ignored display => exact absurd (.inl display) clean
    | unknown _ absent => exact absurd (absent.symm.trans found) (by simp)
    | swallowed _ present _ dead =>
      cases same present
      rw [alive] at dead
      cases dead
    | queued _ present known'' _ read entered =>
      cases same present
      cases known.symm.trans known''
      have read : Message.demarshal spec h.body h.before.inbox.fds = _ := read
      rw [read] at isArgs
      cases isArgs
      exact entered

/-! ## Steps -/

/-- The events of the object go to another queue from now on. -/
def Step.Redirects (s : Step δ) (id : ObjectId) (g : Generation) : Prop :=
  ∃ o queue, s.action = .setQueue o queue ∧ s.report.refused = none ∧ o.id = id ∧
    o.generation = g

section

variable {id : ObjectId} {g : Generation} {queue : QueueId}

theorem Step.Effect.stations_of_read {s : Step δ} {outcomes : List ReadOutcome}
    (effect : s.Effect) (reads : s.action = .read outcomes)
    (stations : s.before.objects.Stations id g queue) :
    s.after.objects.Stations id g queue ∧
      ∀ h ∈ s.handled, h.before.objects.Stations id g queue := by
  obtain ⟨_, _, _, noRead⟩ | ⟨nothing, _, _, after⟩ |
      ⟨outcomes, gate, gate', error, _, handled, _, after⟩ := effect.arrival_cases
  · exact absurd reads (noRead outcomes)
  · rw [nothing, after]
    exact ⟨stations, by simp⟩
  · rw [handled, after]
    refine Connection.absorb_invariant (I := fun past d => d.objects.Stations id g queue ∧
      ∀ h ∈ past, h.before.objects.Stations id g queue) ?_ ?_ ⟨stations, by simp⟩
    · rintro past h ⟨here, earlier⟩
      refine ⟨h.handles.stations here, ?_⟩
      intro h' mem
      obtain old | rfl : h' ∈ past ∨ h' = h := by simpa using mem
      · exact earlier h' old
      · exact here
    · rintro past d error ⟨here, earlier⟩
      rw [Connection.fail_value]
      exact ⟨here, earlier⟩

theorem Step.Effect.stations_of_action {s : Step δ} (effect : s.Effect)
    (noRead : ∀ outcomes, s.action ≠ .read outcomes) (unmoved : ¬ s.Redirects id g)
    (exist : s.after.queues.contains queue = true)
    (stations : s.before.objects.Stations id g queue) : s.after.objects.Stations id g queue := by
  cases effect with
  | read | withdraw => exact absurd rfl (noRead _)
  | create _ _ inserted =>
    obtain ⟨_, _, generation, rfl⟩ := ObjectTable.insertClient_ok inserted
    exact stations.insert rfl rfl generation
  | adopt _ found =>
    obtain ⟨present, _⟩ := ObjectTable.live?_some.1 found
    exact stations.put present (fun live => live) rfl fun _ _ => rfl
  | release => exact stations.release _
  | @request _ _ _ args final _ _ _ _ _ _ _ _ _ _ heard released =>
    subst heard released
    cases final with
    | true => exact (stations.announcements _).release _
    | false => exact stations.announcements _
  | attach _ found =>
    obtain ⟨present, _⟩ := ObjectTable.current?_some.1 found
    exact stations.put present (fun live => live) rfl fun _ _ => rfl
  | setQueue _ _ found =>
    obtain ⟨present, _, generation⟩ := ObjectTable.current?_some.1 found
    refine stations.put present (fun live => live) rfl ?_
    -- The object that moves is another one.
    intro isObject same
    exact absurd ⟨_, _, rfl, rfl, isObject, generation.symm.trans same⟩ unmoved
  | @destroyQueue c gone =>
    refine stations.reassignQueue ?_
    -- The queue is still there, so it is not the one that goes, unless nothing happens to it.
    rintro rfl
    refine Classical.byContradiction fun other => ?_
    rw [EventQueues.contains, EventQueues.get?_remove, if_pos ⟨rfl, other⟩] at exist
    cases exist
  | close => exact stations.clear
  | _ => exact stations

theorem Step.Effect.stations {s : Step δ} (effect : s.Effect) (unmoved : ¬ s.Redirects id g)
    (exist : s.after.queues.contains queue = true)
    (stations : s.before.objects.Stations id g queue) :
    s.after.objects.Stations id g queue ∧
      ∀ h ∈ s.handled, h.before.objects.Stations id g queue := by
  by_cases reads : ∃ outcomes, s.action = .read outcomes
  · obtain ⟨outcomes, reads⟩ := reads
    exact effect.stations_of_read reads stations
  · have noRead : ∀ outcomes, s.action ≠ .read outcomes := not_exists.1 reads
    rw [handled_of_action noRead]
    exact ⟨effect.stations_of_action noRead unmoved exist stations, by simp⟩

theorem Connection.run_stations {c : Connection δ} (actions : List (Action δ))
    (stations : c.objects.Stations id g queue)
    (unmoved : ∀ s ∈ c.trace actions, ¬ s.Redirects id g)
    (exist : ∀ s ∈ c.trace actions, s.after.queues.contains queue = true) :
    ∀ s ∈ c.trace actions, ∀ h ∈ s.handled, h.before.objects.Stations id g queue := by
  refine (history_invariant (I := fun past d => (∀ s ∈ past, ¬ s.Redirects id g) →
    (∀ s ∈ past, s.after.queues.contains queue = true) → d.objects.Stations id g queue ∧
      ∀ s ∈ past, ∀ h ∈ s.handled, h.before.objects.Stations id g queue) ?_ actions
    (fun _ _ => ⟨stations, by simp⟩) unmoved exist).2
  intro past d action earlier unmoved exist
  simp only [List.mem_append, List.mem_singleton, or_imp, forall_and, forall_eq] at unmoved exist ⊢
  obtain ⟨here, before⟩ := earlier unmoved.1 exist.1
  obtain ⟨after, each⟩ := (d.step_effect action).stations unmoved.2 exist.2 here
  exact ⟨after, before, each⟩

end

/-! ## Events that are handed over -/

theorem Step.action_of_delivery {s : Step δ} {d : Delivery δ} (delivers : s.delivery? = some d) :
    ∃ asked, s.action = .next asked := by
  unfold Step.delivery? at delivers
  split at delivers
  next asked asks => exact ⟨asked, asks⟩
  · cases delivers

theorem Connection.popped_of_delivery {c : Connection δ} {asked : QueueId} {d : Delivery δ}
    (delivers : (c.step (.next asked)).delivery? = some d) :
    ∃ dropped rest, c.queues.get? asked = some (dropped ++ d.event :: rest) ∧
      (c.step (.next asked)).popped asked = dropped ++ [d.event] := by
  obtain ⟨_, _, nothing, _⟩ | ⟨dropped, _, ⟨nothing, _⟩ |
      ⟨_, rest, isDelivery, _, waits, popped, _⟩⟩ := c.step_next_cases asked
  · exact absurd (nothing.symm.trans delivers) (by simp)
  · exact absurd (nothing.symm.trans delivers) (by simp)
  · cases isDelivery.symm.trans delivers
    exact ⟨dropped, rest, by simpa using waits, popped⟩

/-! ## Announcements -/

/-- The event comes from this object. -/
def QueuedEvent.IsFrom (event : QueuedEvent) (id : ObjectId) (g : Generation) : Prop :=
  event.sender = id ∧ event.generation = g

/-- A message of a step whose event goes into a queue and has an argument that is a new object, with
    a known interface. -/
structure Announcement (s : Step δ) where
  earlier : List (Handling δ)
  message : Handling δ
  later : List (Handling δ)
  handled : s.handled = earlier ++ message :: later
  queue : QueueId
  event : QueuedEvent
  added : message.added? = some (queue, event)
  sender : Entry δ
  live : message.before.objects.live? event.sender = some sender
  spec : MessageSpec
  known : sender.interface.event? event.opcode = some spec
  index : Nat
  id : ObjectId
  named : event.args[index]? = some (.newId id)
  interface : Interface
  typed : message.before.protocol.argInterface? spec index = some interface

namespace Announcement

open Connection (initial)

variable {s : Step δ} (a : Announcement s)

/-- What has gone into the queue before the event. -/
def ahead (past : List (Step δ)) : List QueuedEvent :=
  pushedTo a.queue past ++ EventQueues.arrivingOn a.queue (a.earlier.filterMap Handling.added?)

theorem mem_handled : a.message ∈ s.handled := by simp [a.handled]

theorem exists_object (housed : a.message.before.Housed) :
    ∃ new, a.message.after.objects.live? a.id = some new ∧
      a.message.before.objects.nextGeneration ≤ new.generation ∧
      new.interface = a.interface ∧ new.queue = a.queue := by
  obtain ⟨_, _, live, isQueue, _⟩ := a.message.placed housed a.added
  cases a.live.symm.trans live
  have entered := Handling.entered_of_added a.added a.live a.known
  obtain ⟨new, live, later, interface, queue⟩ :=
    (Connection.enterNewObjects_enters entered).2 a.index a.interface a.named
      (by rw [Nat.zero_add, a.typed])
  exact ⟨new, live, later, interface, queue.trans isQueue⟩

theorem pushedTo_eq (past future : List (Step δ)) :
    ∃ rest, pushedTo a.queue (past ++ s :: future) = a.ahead past ++ a.event :: rest := by
  have step : pushedTo a.queue [s] =
      EventQueues.arrivingOn a.queue (a.earlier.filterMap Handling.added?) ++
        a.event :: EventQueues.arrivingOn a.queue (a.later.filterMap Handling.added?) := by
    simp [pushedTo, a.handled, a.added, EventQueues.arrivingOn]
  refine ⟨EventQueues.arrivingOn a.queue (a.later.filterMap Handling.added?) ++
    pushedTo a.queue future, ?_⟩
  rw [List.append_cons, pushedTo_append, pushedTo_append, step]
  simp [ahead]

section

variable {protocol : Protocol} {actions : List (Action δ)} {past future : List (Step δ)}
  (taken : (initial protocol).trace actions = past ++ s :: future)

include taken

theorem housed : a.message.before.Housed :=
  Connection.handled_housed protocol actions s (by simp [taken]) _ a.mem_handled

/-- What was added before, and the event itself, come from objects that were there before. -/
theorem generation_lt {h : Handling δ} {queue : QueueId} {event : QueuedEvent}
    (early : (∃ t ∈ past, h ∈ t.handled) ∨ h ∈ a.earlier ∨ h = a.message)
    (added : h.added? = some (queue, event)) :
    event.generation < a.message.before.objects.nextGeneration := by
  have below {t : Step δ} (mem : t ∈ past ++ s :: future) (handled : h ∈ t.handled) :
      event.generation < h.before.objects.nextGeneration :=
    (Connection.added_generation_lt (taken ▸ mem) handled added).1
  obtain ⟨before, action, after, rfl, rfl, rfl, rfl⟩ := Connection.exists_of_trace_eq taken
  have effect := Connection.step_effect ((initial protocol).run before) action
  obtain ⟨t, mem, handled⟩ | old | rfl := early
  · obtain ⟨old, later⟩ := Connection.added_generation_lt mem handled added
    have here := (effect.handled_carry.2 _ a.mem_handled).1
    exact Nat.lt_of_lt_of_le old (Nat.le_trans later here.next)
  · -- In the same step, messages are handled one after the other.
    obtain ⟨front, back, split⟩ := List.append_of_mem old
    have handled := a.handled
    rw [split, List.append_assoc, List.cons_append] at handled
    have later := (effect.handled_after (K := fun t => h.after.objects.Precedes t)
      (fun h' precedes => precedes.trans h'.precedes) handled .refl).1 a.message (by simp)
    exact Nat.lt_of_lt_of_le
      (below (List.mem_append_right _ List.mem_cons_self) (by simp [handled]))
      (Nat.le_trans h.precedes.next later.next)
  · exact below (List.mem_append_right _ List.mem_cons_self) a.mem_handled

theorem not_mem_ahead {event : QueuedEvent} {id : ObjectId} {g : Generation}
    (new : a.message.before.objects.nextGeneration ≤ g) (mem : event ∈ a.ahead past) :
    ¬ event.IsFrom id g := by
  rintro ⟨_, rfl⟩
  refine absurd ?_ (Nat.not_lt.2 new)
  obtain pushed | arrived := List.mem_append.1 mem
  · obtain ⟨t, isPast, h, handled, added⟩ := mem_pushedTo.1 pushed
    exact a.generation_lt taken (.inl ⟨t, isPast, handled⟩) added
  · simp only [EventQueues.arrivingOn, List.mem_map, List.mem_filter, List.mem_filterMap] at arrived
    obtain ⟨⟨queue, event⟩, ⟨⟨h, isEarlier, added⟩, _⟩, rfl⟩ := arrived
    exact a.generation_lt taken (.inr (.inl isEarlier)) added

theorem event_not_from {id : ObjectId} {g : Generation}
    (new : a.message.before.objects.nextGeneration ≤ g) : ¬ a.event.IsFrom id g := by
  rintro ⟨_, rfl⟩
  exact absurd (a.generation_lt taken (.inr (.inr rfl)) a.added) (Nat.not_lt.2 new)

/-- The queue was there when the event came. -/
theorem queue_known :
    ∃ before action after, actions = before ++ action :: after ∧
      past = (initial protocol).trace before ∧ s = ((initial protocol).run before).step action ∧
      future = s.after.trace after ∧ a.queue < s.after.queues.next := by
  obtain ⟨before, action, after, rfl, rfl, rfl, rfl⟩ := Connection.exists_of_trace_eq taken
  refine ⟨before, action, after, rfl, rfl, rfl, rfl, ?_⟩
  have effect := Connection.step_effect ((initial protocol).run before) action
  have exist : ((initial protocol).run before).queues.contains a.queue = true := by
    refine Classical.byContradiction fun missing => ?_
    have absent : ((initial protocol).run before).queues.get? a.queue = none := by
      simpa [EventQueues.contains] using missing
    have silent := effect.pushedTo_absent (ledger_run protocol before).housed absent
    have pushed := mem_pushedTo.2 ⟨_, List.mem_singleton_self _, _, a.mem_handled, a.added⟩
    rw [silent] at pushed
    cases pushed
  exact Nat.lt_of_lt_of_le (Connection.lt_next_of_contains protocol before exist) effect.next_le

/-- A queue that is there later has been there since the event came. -/
theorem queue_exists (more : List (Action δ))
    (exist : ((initial protocol).run (actions ++ more)).queues.contains a.queue = true) :
    ((initial protocol).run actions).queues.contains a.queue = true := by
  have ledger := ledger_run protocol actions
  obtain ⟨before, action, after, rfl, _, rfl, _, used⟩ := a.queue_known taken
  refine Classical.byContradiction fun missing => ?_
  have known : a.queue < ((initial protocol).run (before ++ action :: after)).queues.next := by
    rw [Connection.run_append]
    exact Nat.lt_of_lt_of_le used (Connection.next_le_run _ after)
  have gone := Connection.gone_of_gone ledger.housed known
    (by simpa [EventQueues.contains] using missing) more
  rw [Connection.run_append, EventQueues.contains, gone] at exist
  cases exist

/-- After the announcement, what the object sends goes to the queue of the announcement. -/
theorem stations {new : Entry δ} (isNew : a.message.after.objects.live? a.id = some new)
    (queue : new.queue = a.queue) (unmoved : ∀ t ∈ future, ¬ t.Redirects a.id new.generation)
    (exist : ((initial protocol).run actions).queues.contains a.queue = true) :
    (∀ h ∈ a.later, h.before.objects.Stations a.id new.generation a.queue) ∧
      ∀ t ∈ future, ∀ h ∈ t.handled,
        h.before.objects.Stations a.id new.generation a.queue := by
  obtain ⟨found, alive⟩ := ObjectTable.live?_some.1 isNew
  have start : a.message.after.objects.Stations a.id new.generation a.queue := by
    have before := (Connection.handled_precedes (initial protocol) actions s (by simp [taken])
      a.message a.mem_handled).1
    refine ⟨?_, ?_⟩
    · exact a.message.precedes.below (before.below (Connection.initial_below protocol)) _ _ found
    · intro entry current
      obtain ⟨present, _⟩ := ObjectTable.current?_some.1 current
      cases found.symm.trans present
      exact queue
  obtain ⟨before, action, after, rfl, rfl, rfl, rfl⟩ := Connection.exists_of_trace_eq taken
  obtain ⟨later, here⟩ := (Connection.step_effect _ action).handled_after
    (K := fun t => t.Stations a.id new.generation a.queue)
    (fun h stations => h.handles.stations stations) a.handled start
  refine ⟨later, Connection.run_stations after here unmoved ?_⟩
  intro t mem
  obtain ⟨more, next, rest, rfl, rfl⟩ := Connection.exists_of_mem_trace mem
  have there := a.queue_exists
    (Connection.trace_append (initial protocol) before (action :: (more ++ [next]))) rest
    (by simpa using exist)
  simpa [Connection.run_append, Connection.run] using there

/-- All events that the object has sent went to the queue of the announcement. -/
theorem queue_of_added {new : Entry δ} (isNew : a.message.after.objects.live? a.id = some new)
    (later : a.message.before.objects.nextGeneration ≤ new.generation)
    (queue : new.queue = a.queue) (unmoved : ∀ t ∈ future, ¬ t.Redirects a.id new.generation)
    (exist : ((initial protocol).run actions).queues.contains a.queue = true)
    {target : QueueId} {event : QueuedEvent}
    (pushed : event ∈ pushedTo target ((initial protocol).trace actions))
    (isFrom : event.IsFrom a.id new.generation) : target = a.queue := by
  obtain ⟨follow, future'⟩ := a.stations taken isNew queue unmoved exist
  obtain ⟨t, mem, h, handled, added⟩ := mem_pushedTo.1 pushed
  have housed := Connection.handled_housed protocol actions t mem h handled
  have early (isEarly : (∃ t ∈ past, h ∈ t.handled) ∨ h ∈ a.earlier ∨ h = a.message) :
      target = a.queue :=
    absurd (isFrom.2 ▸ a.generation_lt taken isEarly added) (Nat.not_lt.2 later)
  have late (stations : h.before.objects.Stations a.id new.generation a.queue) :
      target = a.queue := by
    obtain ⟨sender, _, live, rfl, _⟩ := h.placed housed added
    obtain ⟨_, _, live', generation, _⟩ := Handling.added?_some added
    cases live.symm.trans live'
    obtain ⟨found, alive⟩ := ObjectTable.live?_some.1 live
    refine stations.queue sender (ObjectTable.current?_some.2 ⟨?_, alive, ?_⟩)
    · rw [← isFrom.1, found]
    · rw [generation, isFrom.2]
  rw [taken, List.mem_append, List.mem_cons] at mem
  obtain isPast | rfl | isFuture := mem
  · exact early (.inl ⟨t, isPast, handled⟩)
  · rw [a.handled, List.mem_append, List.mem_cons] at handled
    obtain isEarlier | rfl | isLater := handled
    · exact early (.inr (.inl isEarlier))
    · exact early (.inr (.inr rfl))
    · exact late (follow h isLater)
  · exact late (future' t isFuture h handled)

/-- As long as the event waits, what its object has sent waits behind it. -/
theorem waiting {new : Entry δ} (isNew : a.message.after.objects.live? a.id = some new)
    (later : a.message.before.objects.nextGeneration ≤ new.generation)
    (queue : new.queue = a.queue) (unmoved : ∀ t ∈ future, ¬ t.Redirects a.id new.generation)
    {events : List QueuedEvent}
    (exist : ((initial protocol).run actions).queues.get? a.queue = some events)
    (pending : (poppedFrom a.queue ((initial protocol).trace actions)).length ≤
      (a.ahead past).length) :
    ∃ front behind, events = front ++ a.event :: behind ∧
      poppedFrom a.queue ((initial protocol).trace actions) ++ front = a.ahead past ∧
      (∀ e ∈ front, ¬ e.IsFrom a.id new.generation) ∧
      ∀ other others, other ≠ a.queue →
        ((initial protocol).run actions).queues.get? other = some others →
        ∀ e ∈ others, ¬ e.IsFrom a.id new.generation := by
  have ledger := ledger_run protocol actions
  obtain ⟨rest, split, remains⟩ := ledger.account a.queue
  obtain rfl := remains.waiting exist
  obtain ⟨behind, pushed⟩ := a.pushedTo_eq past future
  rw [← taken, split] at pushed
  -- The events that have come out are some of those ahead.
  obtain ⟨front, ahead, waits⟩ : ∃ front, a.ahead past =
      poppedFrom a.queue ((initial protocol).trace actions) ++ front ∧
      rest = front ++ a.event :: behind := by
    obtain ahead | ⟨more, popped, waits⟩ := List.append_eq_append_iff.1 pushed
    · exact ahead
    · obtain rfl : more = [] := by
        rw [popped, List.length_append] at pending
        exact List.eq_nil_of_length_eq_zero (by omega)
      exact ⟨[], by simp [popped], waits.symm⟩
  refine ⟨front, behind, waits, ahead.symm, ?_, ?_⟩
  · intro e mem
    exact a.not_mem_ahead taken later (by rw [ahead]; exact List.mem_append_right _ mem)
  · intro other others differs found e mem isFrom
    exact differs (a.queue_of_added taken isNew later queue unmoved
      (by simp [EventQueues.contains, exist]) (ledger.pushed found e mem) isFrom)

/-- When something that the object sent is handed over, the event has left the queue. -/
theorem left_of_delivery {new : Entry δ}
    (isNew : a.message.after.objects.live? a.id = some new)
    (later : a.message.before.objects.nextGeneration ≤ new.generation)
    (queue : new.queue = a.queue) (unmoved : ∀ t ∈ future, ¬ t.Redirects a.id new.generation)
    (exist : ((initial protocol).run actions).queues.contains a.queue = true)
    {asked : QueueId} {d : Delivery δ}
    (delivers : (((initial protocol).run actions).step (.next asked)).delivery? = some d)
    (isFrom : d.event.IsFrom a.id new.generation) :
    (a.ahead past).length < (poppedFrom a.queue ((initial protocol).trace actions)).length +
      ((((initial protocol).run actions).step (.next asked)).popped a.queue).length := by
  by_cases gone : (a.ahead past).length <
      (poppedFrom a.queue ((initial protocol).trace actions)).length
  · omega
  obtain ⟨events, found⟩ := Option.isSome_iff_exists.1 exist
  obtain ⟨front, behind, rfl, ahead, none, others⟩ :=
    a.waiting taken isNew later queue unmoved found (Nat.not_lt.1 gone)
  obtain ⟨dropped, rest, asks, popped⟩ := Connection.popped_of_delivery delivers
  obtain rfl : asked = a.queue := Classical.byContradiction fun differs =>
    others asked _ differs asks d.event (by simp) isFrom
  -- The event stands in front of everything that the object sent, so it is among those dropped.
  have order : front.length < dropped.length := by
    have split := Option.some.inj (asks.symm.trans found)
    obtain ⟨more, isFront, here⟩ | ⟨more, isDropped, here⟩ := List.append_eq_append_iff.1 split
    · cases more with
      | nil =>
        have same := (List.cons.inj here).1
        exact absurd (same ▸ isFrom) (a.event_not_from taken later)
      | cons first more =>
        have same := (List.cons.inj here).1
        exact absurd isFrom (none d.event (by simp [isFront, same]))
    · cases more with
      | nil =>
        have same := (List.cons.inj here).1
        exact absurd (same ▸ isFrom) (a.event_not_from taken later)
      | cons first more => simp [isDropped]
  have length := congrArg List.length ahead
  rw [List.length_append] at length
  rw [popped, List.length_append, List.length_singleton]
  omega

/-- What was handed over before the event came is not from the object. -/
theorem not_delivered_before {id : ObjectId} {g : Generation}
    (new : a.message.before.objects.nextGeneration ≤ g) {before : List (Action δ)}
    (early : ∀ t ∈ (initial protocol).trace before, t ∈ past) {asked : QueueId} {d : Delivery δ}
    (delivers : (((initial protocol).run before).step (.next asked)).delivery? = some d) :
    ¬ d.event.IsFrom id g := by
  rintro ⟨_, rfl⟩
  obtain ⟨events, exist, mem⟩ := Connection.delivered_waiting delivers
  obtain ⟨t, isEarly, h, handled, added⟩ :=
    mem_pushedTo.1 ((ledger_run protocol before).pushed exist d.event mem)
  exact absurd (a.generation_lt taken (.inl ⟨t, early t isEarly, handled⟩) added) (Nat.not_lt.2 new)

/-- When something that the object sent has been handed over, the event had left the queue. -/
theorem left_of_delivered {new : Entry δ} (isNew : a.message.after.objects.live? a.id = some new)
    (later : a.message.before.objects.nextGeneration ≤ new.generation)
    (queue : new.queue = a.queue) (unmoved : ∀ t ∈ future, ¬ t.Redirects a.id new.generation)
    (exist : ((initial protocol).run actions).queues.contains a.queue = true)
    {done rest : List (Step δ)} {u : Step δ} {d : Delivery δ}
    (split : (initial protocol).trace actions = done ++ u :: rest)
    (delivers : u.delivery? = some d) (isFrom : d.event.IsFrom a.id new.generation) :
    (a.ahead past).length < (poppedFrom a.queue (done ++ [u])).length := by
  obtain ⟨asked, asks⟩ := Step.action_of_delivery delivers
  have taken' := taken
  rw [split] at taken'
  obtain ⟨before, action, after, rfl, rfl, rfl, rfl⟩ := Connection.exists_of_trace_eq split
  obtain rfl : action = .next asked := asks
  obtain ⟨more, isBefore, _⟩ | ⟨more, isPast, tail⟩ := List.append_eq_append_iff.1 taken'
  · exact absurd isFrom (a.not_delivered_before taken later
      (fun t mem => isBefore ▸ List.mem_append_left _ mem) delivers)
  · cases more with
    | nil =>
      -- Nothing is handed over in the step that reads the event.
      obtain ⟨rfl, _⟩ := List.cons.inj tail
      have handled := a.mem_handled
      rw [Step.handled_of_action (by simp [Connection.step])] at handled
      cases handled
    | cons first more =>
      obtain ⟨rfl, rfl⟩ := List.cons.inj tail
      have left := a.left_of_delivery isPast isNew later queue
        (fun t mem => unmoved t (List.mem_append_left _ mem)) (a.queue_exists isPast _ exist)
        delivers isFrom
      rw [poppedFrom_append, List.length_append]
      simpa [poppedFrom] using left

/-- As long as the event has not left the queue, nothing that the object sent is handed over. -/
theorem not_delivered {new : Entry δ} (isNew : a.message.after.objects.live? a.id = some new)
    (later : a.message.before.objects.nextGeneration ≤ new.generation)
    (queue : new.queue = a.queue) (unmoved : ∀ t ∈ future, ¬ t.Redirects a.id new.generation)
    (exist : ((initial protocol).run actions).queues.contains a.queue = true)
    (pending : (poppedFrom a.queue ((initial protocol).trace actions)).length ≤
      (a.ahead past).length) :
    ∀ u ∈ (initial protocol).trace actions, ∀ d, u.delivery? = some d →
      ¬ d.event.IsFrom a.id new.generation := by
  intro u mem d delivers isFrom
  obtain ⟨done, rest, split⟩ := List.append_of_mem mem
  have left := a.left_of_delivered taken isNew later queue unmoved exist split delivers isFrom
  rw [split, List.append_cons, poppedFrom_append, List.length_append] at pending
  omega

/-- The event is the one that leaves the queue after all those ahead of it. -/
theorem event_of_place {done rest : List (Step δ)} {u : Step δ} {d : Delivery δ}
    (split : (initial protocol).trace actions = done ++ u :: rest)
    (asks : u.action = .next a.queue) (delivers : u.delivery? = some d)
    (place : (poppedFrom a.queue (done ++ [u])).length = (a.ahead past).length + 1) :
    d.event = a.event := by
  obtain ⟨behind, pushed⟩ := a.pushedTo_eq past future
  obtain ⟨waiting, account, _⟩ := (ledger_run protocol actions).account a.queue
  rw [← taken, account, split, List.append_cons, poppedFrom_append] at pushed
  obtain ⟨before, action, after, rfl, rfl, rfl, rfl⟩ := Connection.exists_of_trace_eq split
  obtain rfl : action = .next a.queue := asks
  obtain ⟨dropped, _, _, popped⟩ := Connection.popped_of_delivery delivers
  have out : poppedFrom a.queue ((initial protocol).trace before ++
      [((initial protocol).run before).step (.next a.queue)]) =
      poppedFrom a.queue ((initial protocol).trace before) ++ dropped ++ [d.event] := by
    rw [poppedFrom_append, List.append_assoc, ← popped]
    simp [poppedFrom]
  rw [out, List.length_append, List.length_singleton, Nat.add_right_cancel_iff] at place
  rw [out, List.append_assoc, List.append_assoc] at pushed
  exact (List.cons.inj (List.append_inj pushed place).2).1

/-- When the event is handed over, nothing that the object sent has been handed over before. -/
theorem handed_first {new : Entry δ} (isNew : a.message.after.objects.live? a.id = some new)
    (later : a.message.before.objects.nextGeneration ≤ new.generation)
    (queue : new.queue = a.queue) (unmoved : ∀ t ∈ future, ¬ t.Redirects a.id new.generation)
    {d : Delivery δ}
    (delivers : (((initial protocol).run actions).step (.next a.queue)).delivery? = some d)
    (place : (poppedFrom a.queue ((initial protocol).trace actions ++
      [((initial protocol).run actions).step (.next a.queue)])).length =
        (a.ahead past).length + 1) :
    d.event = a.event ∧ ∀ u ∈ (initial protocol).trace actions, ∀ d', u.delivery? = some d' →
      ¬ d'.event.IsFrom a.id new.generation := by
  let asked := ((initial protocol).run actions).step (.next a.queue)
  have goesOn : (initial protocol).trace (actions ++ [.next a.queue]) =
      (initial protocol).trace actions ++ [asked] := Connection.trace_append _ _ _
  have taken' : (initial protocol).trace (actions ++ [.next a.queue]) =
      past ++ s :: (future ++ [asked]) := by
    rw [goesOn, taken, List.append_assoc]
    rfl
  refine ⟨a.event_of_place taken' goesOn rfl delivers place, ?_⟩
  obtain ⟨dropped, _, exist, popped⟩ := Connection.popped_of_delivery delivers
  refine a.not_delivered taken isNew later queue unmoved (by simp [EventQueues.contains, exist]) ?_
  rw [poppedFrom_append, List.length_append] at place
  simp only [poppedFrom, List.flatMap_cons, List.flatMap_nil, popped, List.length_append,
    List.length_singleton, List.length_nil] at place ⊢
  omega

end

end Announcement

end Wayland.Client
