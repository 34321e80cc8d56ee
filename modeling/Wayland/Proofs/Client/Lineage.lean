import Wayland.Proofs.Client.Handlings

/-! # Objects through time

A number may belong to different objects at different times; number and generation together mean
one object for ever.  `Carries` relates a table to a later one: each entry of the later table is
an entry of the earlier one at a later time (`Entry.Continues`), or its generation is new.  The
relation has two parameters, the interfaces that new objects may have and what may be attached to
objects meanwhile.  It holds of every operation, every message and every step, hence of whole runs.
-/

namespace Wayland.Client

variable {δ : Type}

/-- The same object at two times.  It never comes back to life, and of what `attaches` allows
    something may be attached to it if there was nothing before. -/
structure Entry.Continues (attaches : Generation → δ → Prop) (entry entry' : Entry δ) : Prop where
  generation : entry'.generation = entry.generation
  interface : entry'.interface = entry.interface
  live : entry'.life = .live → entry.life = .live
  data : entry'.life = .live → entry'.data = entry.data ∨
    entry.data = none ∧ ∃ data, entry'.data = some data ∧ attaches entry.generation data

/-- What is in the later table was in the earlier one or is new. -/
structure ObjectTable.Carries (enters : ObjectId → Generation → Interface → Prop)
    (attaches : ObjectId → Generation → δ → Prop) (t t' : ObjectTable δ) : Prop where
  next : t.nextGeneration ≤ t'.nextGeneration
  origin : ∀ x entry', t'.get? x = some entry' →
    (∃ entry, t.get? x = some entry ∧ entry.Continues (attaches x) entry') ∨
      t.nextGeneration ≤ entry'.generation ∧ entry'.generation < t'.nextGeneration ∧
        enters x entry'.generation entry'.interface ∧
        (entry'.life = .live → entry'.data = none ∨
          ∃ data, entry'.data = some data ∧ attaches x entry'.generation data)

/-- One table is the other at an earlier time. -/
abbrev ObjectTable.Precedes (t t' : ObjectTable δ) : Prop :=
  t.Carries (fun _ _ _ => True) (fun _ _ _ => True) t'

section

variable {attaches : Generation → δ → Prop} {entry entry' entry'' : Entry δ}

theorem Entry.Continues.refl : entry.Continues attaches entry := ⟨rfl, rfl, id, fun _ => .inl rfl⟩

theorem Entry.Continues.trans (first : entry.Continues attaches entry')
    (second : entry'.Continues attaches entry'') : entry.Continues attaches entry'' where
  generation := second.generation.trans first.generation
  interface := second.interface.trans first.interface
  live := first.live ∘ second.live
  data := by
    intro live
    obtain same | ⟨free, data, attached, allowed⟩ := second.data live
    · rw [same]
      exact first.data (second.live live)
    · -- What was free in between was free before.
      obtain same | ⟨_, taken, found, _⟩ := first.data (second.live live)
      · exact .inr ⟨same ▸ free, data, attached, first.generation ▸ allowed⟩
      · rw [found] at free
        cases free

end

namespace ObjectTable

variable {enters : ObjectId → Generation → Interface → Prop}
  {attaches : ObjectId → Generation → δ → Prop}
  {t t' t'' : ObjectTable δ} {id : ObjectId}

namespace Carries

theorem amend (next : t'.nextGeneration = t.nextGeneration)
    (kept : ∀ x entry', t'.get? x = some entry' →
      ∃ entry, t.get? x = some entry ∧ entry.Continues (attaches x) entry') :
    t.Carries enters attaches t' :=
  ⟨Nat.le_of_eq next.symm, fun x entry' found => .inl (kept x entry' found)⟩

theorem refl : t.Carries enters attaches t := .amend rfl fun _ entry found => ⟨entry, found, .refl⟩

theorem trans (first : t.Carries enters attaches t') (second : t'.Carries enters attaches t'') :
    t.Carries enters attaches t'' where
  next := Nat.le_trans first.next second.next
  origin := by
    intro x entry'' found
    obtain ⟨entry', found, later⟩ | ⟨new, below, known, data⟩ := second.origin x entry'' found
    · obtain ⟨entry, found, earlier⟩ | ⟨new, below, known, data⟩ := first.origin x entry' found
      · exact .inl ⟨entry, found, earlier.trans later⟩
      · rw [later.generation, later.interface]
        refine .inr ⟨new, Nat.lt_of_lt_of_le below second.next, known, ?_⟩
        intro live
        obtain same | ⟨_, data, attached, allowed⟩ := later.data live
        · rw [same]
          exact data (later.live live)
        · exact .inr ⟨data, attached, allowed⟩
    · exact .inr ⟨Nat.le_trans first.next new, below, known, data⟩

theorem mono {enters' : ObjectId → Generation → Interface → Prop}
    {attaches' : ObjectId → Generation → δ → Prop} (carries : t.Carries enters attaches t')
    (more : ∀ x g interface, enters x g interface → enters' x g interface)
    (more' : ∀ x g data, attaches x g data → attaches' x g data) :
    t.Carries enters' attaches' t' where
  next := carries.next
  origin := by
    intro x entry' found
    obtain ⟨entry, found, continues⟩ | ⟨new, below, known, data⟩ := carries.origin x entry' found
    · refine .inl ⟨entry, found, continues.generation, continues.interface, continues.live, ?_⟩
      intro live
      obtain same | ⟨free, data, attached, allowed⟩ := continues.data live
      · exact .inl same
      · exact .inr ⟨free, data, attached, more' _ _ _ allowed⟩
    · refine .inr ⟨new, below, more _ _ _ known, ?_⟩
      intro live
      obtain free | ⟨data, attached, allowed⟩ := data live
      · exact .inl free
      · exact .inr ⟨data, attached, more' _ _ _ allowed⟩

theorem precedes (carries : t.Carries enters attaches t') : t.Precedes t' :=
  carries.mono (fun _ _ _ _ => trivial) fun _ _ _ _ => trivial

/-! ## Operations -/

theorem put {entry entry' : Entry δ} (found : t.get? id = some entry)
    (continues : entry.Continues (attaches id) entry') :
    t.Carries enters attaches (t.put id entry') := by
  refine amend rfl ?_
  intro x changed lookup
  rw [get?_put] at lookup
  split at lookup
  next same =>
    cases lookup
    subst same
    exact ⟨entry, found, continues⟩
  · exact ⟨changed, lookup, .refl⟩

theorem remove : t.Carries enters attaches (t.remove id) := by
  refine amend rfl ?_
  intro x entry lookup
  rw [get?_remove] at lookup
  split at lookup
  · cases lookup
  · exact ⟨entry, lookup, .refl⟩

theorem clear : t.Carries enters attaches t.clear := by
  refine amend rfl ?_
  intro x entry lookup
  simp [get?, ObjectTable.clear] at lookup

theorem insert {entry : Entry δ} (entries : t'.entries = t.entries.insert id entry)
    (next : t'.nextGeneration = t.nextGeneration + 1)
    (generation : entry.generation = t.nextGeneration) (free : entry.data = none)
    (known : enters id entry.generation entry.interface) : t.Carries enters attaches t' where
  next := by
    rw [next]
    exact Nat.le_succ _
  origin := by
    intro x found lookup
    rw [get?_of_insert entries] at lookup
    split at lookup
    next same =>
      cases lookup
      subst same
      refine .inr ⟨Nat.le_of_eq generation.symm, ?_, known, fun _ => .inl free⟩
      rw [generation, next]
      exact Nat.lt_succ_self _
    · exact .inl ⟨found, lookup, .refl⟩

theorem markAnnounced : t.Carries enters attaches (t.markAnnounced id) := by
  refine amend rfl ?_
  intro x entry' lookup
  rw [get?_markAnnounced] at lookup
  split at lookup
  · obtain ⟨entry, found, rfl⟩ := Option.map_eq_some_iff.1 lookup
    exact ⟨entry, found, rfl, rfl, fun live => live, fun _ => .inl rfl⟩
  · exact ⟨entry', lookup, .refl⟩

theorem announcements (ids : List ObjectId) :
    t.Carries enters attaches (ids.foldl ObjectTable.markAnnounced t) := by
  induction ids generalizing t with
  | nil => exact refl
  | cons id ids ih => exact markAnnounced.trans ih

theorem release (generation : Generation) :
    t.Carries enters attaches (t.release id generation).value := by
  obtain same | ⟨_, entry, found, _, _, ⟨_, _, _, value⟩ | ⟨_, value⟩⟩ :=
    release_cases t id generation
  · rw [same]
    exact refl
  · rw [value]
    exact put found ⟨rfl, rfl, nofun, nofun⟩
  · rw [value]
    exact remove

theorem deleteId : t.Carries enters attaches (t.deleteId id).value := by
  obtain ⟨_, value⟩ | ⟨entry, _, _, value⟩ | ⟨entry, found, live, value⟩ := deleteId_cases t id
  · rw [value]
    exact refl
  · rw [value]
    exact remove
  · rw [value]
    exact put found ⟨rfl, rfl, fun live => live, fun _ => .inl rfl⟩

theorem reassignQueue (old new : QueueId) :
    t.Carries enters attaches (t.reassignQueue old new) := by
  refine amend rfl ?_
  intro x entry' lookup
  rw [get?_reassignQueue] at lookup
  obtain ⟨entry, found, rfl⟩ := Option.map_eq_some_iff.1 lookup
  refine ⟨entry, found, ?_⟩
  split
  · exact ⟨rfl, rfl, fun live => live, fun _ => .inl rfl⟩
  · exact .refl

end Carries

/-- Generations that have been given out are below the next one. -/
def Below (t : ObjectTable δ) : Prop :=
  ∀ x entry, t.get? x = some entry → entry.generation < t.nextGeneration

theorem Carries.below (carries : t.Carries enters attaches t') (below : t.Below) : t'.Below := by
  intro x entry' found
  obtain ⟨entry, found, continues⟩ | ⟨_, below', _⟩ := carries.origin x entry' found
  · rw [continues.generation]
    exact Nat.lt_of_lt_of_le (below x entry found) carries.next
  · exact below'

/-- An object that is known is the same later, as long as it is there. -/
theorem Carries.same {entry entry' : Entry δ} (carries : t.Carries enters attaches t')
    (below : t.Below) (found : t.get? id = some entry) (found' : t'.get? id = some entry')
    (generation : entry'.generation = entry.generation) : entry.Continues (attaches id) entry' := by
  obtain ⟨before, present, continues⟩ | ⟨new, _⟩ := carries.origin id entry' found'
  · rw [found] at present
    cases present
    exact continues
  · have old := below id entry found
    rw [generation] at new
    exact absurd old (Nat.not_lt.2 new)

/-- Where nothing can be attached meanwhile, a live object has what it had before, and a new one has
    nothing. -/
theorem Carries.idle_cases {entry' : Entry δ} (carries : t.Carries enters (fun _ _ _ => False) t')
    (live : t'.live? id = some entry') :
    (∃ entry, t.live? id = some entry ∧ entry'.generation = entry.generation ∧
      entry'.interface = entry.interface ∧ entry'.data = entry.data) ∨
    t.nextGeneration ≤ entry'.generation ∧ entry'.data = none := by
  obtain ⟨found, alive⟩ := live?_some.1 live
  obtain ⟨entry, present, continues⟩ | ⟨new, _, _, free⟩ := carries.origin id entry' found
  · obtain same | ⟨_, _, _, impossible⟩ := continues.data alive
    · exact .inl ⟨entry, live?_some.2 ⟨present, continues.live alive⟩, continues.generation,
        continues.interface, same⟩
    · exact impossible.elim
  · obtain free | ⟨_, _, impossible⟩ := free alive
    · exact .inr ⟨new, free⟩
    · exact impossible.elim

end ObjectTable

/-! ## Messages -/

open ObjectTable (Carries)

/-- The objects that messages may create: they have numbers of the compositor's and tables of the
    protocol. -/
def enteredBy (protocol : Protocol) (id : ObjectId) (_ : Generation) (interface : Interface) :
    Prop :=
  ObjectId.isClient id = false ∧ interface ∈ protocol.interfaces

theorem mem_of_argInterface? {protocol : Protocol} {spec : MessageSpec} {index : Nat}
    {interface : Interface} (found : protocol.argInterface? spec index = some interface) :
    interface ∈ protocol.interfaces := by
  obtain ⟨place, _, found⟩ := Option.bind_eq_some_iff.1 found
  exact List.mem_of_getElem? found

namespace Connection

theorem enterNewObjects_carries {protocol : Protocol} {sender : ObjectId} {entry : Entry δ}
    {spec : MessageSpec} {index : Nat} {args : List Argument} {t t' : ObjectTable δ}
    {result : Option NumberConflict}
    (entered : (enterNewObjects protocol sender entry spec index args t).value = (result, t')) :
    t.Carries (enteredBy protocol) (fun _ _ _ => False) t' := by
  induction args generalizing index t with
  | nil =>
    cases entered
    exact .refl
  | cons arg args ih =>
    unfold enterNewObjects at entered
    split at entered
    · exact ih entered
    · split at entered
      · exact ih entered
      next known =>
        split at entered
        · cases entered
          exact .refl
        next inserted =>
          obtain ⟨foreign, _, rfl⟩ := ObjectTable.insertServer_ok inserted
          refine Carries.trans ?_ (ih entered)
          exact .insert rfl rfl rfl rfl ⟨foreign, mem_of_argInterface? known⟩

theorem Handles.carries {c c' : Connection δ} {header : Wire.Header} {body : Wire.Bytes}
    {fault : Option FatalError} (handles : Handles c header body fault c') :
    c.objects.Carries (enteredBy c.protocol) (fun _ _ _ => False) c'.objects := by
  cases handles with
  | deleteId => exact .deleteId
  | conflict _ _ _ _ _ entered | queued _ _ _ _ _ entered => exact enterNewObjects_carries entered
  | _ => exact .refl

/-- A message sees the objects of its time: what is there before it comes from the start, and
    what it leaves is carried to the end. -/
theorem handlings_carry (c : Connection δ) :
    c.objects.Carries (enteredBy c.protocol) (fun _ _ _ => False) c.absorb.value.objects ∧
    ∀ h ∈ c.handlings,
      c.objects.Carries (enteredBy c.protocol) (fun _ _ _ => False) h.before.objects ∧
      h.after.objects.Carries (enteredBy c.protocol) (fun _ _ _ => False)
        c.absorb.value.objects := by
  refine (absorb_invariant (I := fun past d => d.protocol = c.protocol ∧
    c.objects.Carries (enteredBy c.protocol) (fun _ _ _ => False) d.objects ∧
    ∀ h ∈ past, c.objects.Carries (enteredBy c.protocol) (fun _ _ _ => False) h.before.objects ∧
      h.after.objects.Carries (enteredBy c.protocol) (fun _ _ _ => False) d.objects) ?_ ?_
    ⟨rfl, .refl, by simp⟩).2
  · rintro past h ⟨protocol, carries, earlier⟩
    have message : h.before.objects.Carries (enteredBy c.protocol) (fun _ _ _ => False)
        h.after.objects := by
      rw [← protocol]
      exact h.handles.carries
    have kept : h.after.protocol = h.before.protocol := (handleMessage_kept _ _ _).protocol
    refine ⟨kept.trans protocol, carries.trans message, ?_⟩
    intro h' mem
    obtain old | rfl : h' ∈ past ∨ h' = h := by simpa using mem
    · exact ⟨(earlier h' old).1, (earlier h' old).2.trans message⟩
    · exact ⟨carries, .refl⟩
  · rintro past d error holds
    rw [fail_value]
    exact holds

end Connection

/-! ## Steps and runs -/

namespace Step

/-- The objects that may be created in a step. -/
def Enters (s : Step δ) (id : ObjectId) (generation : Generation) (interface : Interface) : Prop :=
  enteredBy s.before.protocol id generation interface ∨
    ∃ factory version o, s.action = .create factory interface version ∧
      s.report.object = some o ∧ o.id = id ∧ o.generation = generation

/-- What is offered to an object in a step. -/
def Attaches (s : Step δ) (id : ObjectId) (generation : Generation) (data : δ) : Prop :=
  ∃ o interface handlers, s.action = .attach o interface handlers data ∧ o.id = id ∧
    o.generation = generation

variable {s : Step δ}

theorem Effect.protocol (effect : s.Effect) : s.after.protocol = s.before.protocol := by
  cases effect with
  | read => exact (Connection.readRound_kept _ _).protocol
  | _ => rfl

theorem Effect.handled_carry (effect : s.Effect) :
    (∀ outcomes, s.action = .read outcomes →
      s.before.objects.Carries (enteredBy s.before.protocol) (fun _ _ _ => False) s.after.objects) ∧
    ∀ h ∈ s.handled,
      s.before.objects.Carries (enteredBy s.before.protocol) (fun _ _ _ => False) h.before.objects ∧
      h.after.objects.Carries (enteredBy s.before.protocol) (fun _ _ _ => False)
        s.after.objects := by
  obtain ⟨nothing, _, _, noRead⟩ | ⟨nothing, _, _, after⟩ |
      ⟨outcomes, gate, gate', error, _, handled, _, after⟩ := effect.arrival_cases
  · exact ⟨fun outcomes reads => absurd reads (noRead outcomes), by simp [nothing]⟩
  · refine ⟨fun _ _ => ?_, by simp [nothing]⟩
    rw [after]
    exact .refl
  · obtain ⟨whole, each⟩ := ({ s.before with gate }.filled outcomes).handlings_carry
    rw [handled, after]
    exact ⟨fun _ _ => whole, each⟩

theorem Effect.carries (effect : s.Effect) :
    s.before.objects.Carries s.Enters s.Attaches s.after.objects := by
  -- Whether a reader reads or only withdraws, messages are all that can change the table.
  have reading : ∀ outcomes, s.action = .read outcomes →
      s.before.objects.Carries s.Enters s.Attaches s.after.objects :=
    fun outcomes reads =>
      (effect.handled_carry.1 outcomes reads).mono (fun _ _ _ => .inl) (fun _ _ _ => False.elim)
  cases effect with
  | read | withdraw => exact reading _ rfl
  | create _ _ inserted =>
    obtain ⟨_, _, generation, rfl⟩ := ObjectTable.insertClient_ok inserted
    exact .insert rfl rfl generation rfl (.inr ⟨_, _, _, rfl, rfl, rfl, rfl⟩)
  | adopt _ found =>
    obtain ⟨present, _⟩ := ObjectTable.live?_some.1 found
    exact .put present ⟨rfl, rfl, id, fun _ => .inl rfl⟩
  | release => exact .release _
  | @request _ _ _ args final _ _ _ _ _ _ _ _ _ _ heard released =>
    subst heard released
    cases final with
    | true => exact Carries.trans (.announcements _) (.release _)
    | false => exact .announcements _
  | attach _ found free =>
    obtain ⟨present, live, generation⟩ := ObjectTable.current?_some.1 found
    exact .put present ⟨rfl, rfl, id, fun _ =>
      .inr ⟨free, _, rfl, _, _, _, rfl, rfl, generation.symm⟩⟩
  | setQueue _ _ found =>
    obtain ⟨present, _⟩ := ObjectTable.current?_some.1 found
    exact .put present ⟨rfl, rfl, id, fun _ => .inl rfl⟩
  | destroyQueue => exact .reassignQueue _ _
  | close => exact .clear
  | _ => exact .refl

end Step

namespace Connection

theorem run_precedes (c : Connection δ) (actions : List (Action δ)) :
    c.objects.Precedes (c.run actions).objects := by
  refine history_invariant (I := fun _ d => c.objects.Precedes d.objects) ?_ actions .refl
  intro _ d action precedes
  exact precedes.trans (d.step_effect action).carries.precedes

/-- What is attached to objects in the course of a run is what actions attach. -/
theorem run_carries (c : Connection δ) (actions : List (Action δ)) :
    c.objects.Carries (fun _ _ _ => True)
      (fun id generation data => ∃ o interface handlers,
        .attach o interface handlers data ∈ actions ∧ o.id = id ∧ o.generation = generation)
      (c.run actions).objects := by
  induction actions generalizing c with
  | nil => exact .refl
  | cons action actions ih =>
    refine Carries.trans ((c.step_effect action).carries.mono ?_ ?_) ((ih _).mono ?_ ?_)
    · exact fun _ _ _ _ => trivial
    · rintro _ _ _ ⟨o, interface, handlers, attaches, which⟩
      exact ⟨o, interface, handlers, List.mem_cons.2 (.inl attaches.symm), which⟩
    · exact fun _ _ _ _ => trivial
    · rintro _ _ _ ⟨o, interface, handlers, later, which⟩
      exact ⟨o, interface, handlers, List.mem_cons_of_mem _ later, which⟩

/-- What is attached to a live object was attached to it before the run, or by an action. -/
theorem run_data {c : Connection δ} {actions : List (Action δ)} {id : ObjectId} {entry : Entry δ}
    {data : δ} (live : (c.run actions).objects.live? id = some entry)
    (attached : entry.data = some data) :
    (∃ before, c.objects.live? id = some before ∧ before.generation = entry.generation ∧
        before.data = some data) ∨
      ∃ o interface handlers, .attach o interface handlers data ∈ actions ∧ o.id = id ∧
        o.generation = entry.generation := by
  obtain ⟨found, alive⟩ := ObjectTable.live?_some.1 live
  obtain ⟨before, present, continues⟩ | ⟨_, _, _, free⟩ :=
    (c.run_carries actions).origin id entry found
  · obtain same | ⟨_, data', now, allowed⟩ := continues.data alive
    · exact .inl ⟨before, ObjectTable.live?_some.2 ⟨present, continues.live alive⟩,
        continues.generation.symm, same ▸ attached⟩
    · rw [attached] at now
      cases now
      rw [continues.generation]
      exact .inr allowed
  · obtain free | ⟨data', now, allowed⟩ := free alive
    · rw [attached] at free
      cases free
    · rw [attached] at now
      cases now
      exact .inr allowed

/-- The table at the time when a message was handled lies between the start and the end. -/
theorem handled_precedes (c : Connection δ) (actions : List (Action δ)) :
    ∀ s ∈ c.trace actions, ∀ h ∈ s.handled,
      c.objects.Precedes h.before.objects ∧ h.after.objects.Precedes (c.run actions).objects := by
  refine (history_invariant (I := fun past d => c.objects.Precedes d.objects ∧
    ∀ s ∈ past, ∀ h ∈ s.handled,
      c.objects.Precedes h.before.objects ∧ h.after.objects.Precedes d.objects) ?_ actions
    ⟨.refl, by simp⟩).2
  rintro past d action ⟨precedes, earlier⟩
  have effect := d.step_effect action
  have step : d.objects.Precedes (d.step action).after.objects := effect.carries.precedes
  refine ⟨precedes.trans step, ?_⟩
  intro s mem h handled
  obtain old | rfl : s ∈ past ∨ s = d.step action := by simpa using mem
  · exact ⟨(earlier s old h handled).1, (earlier s old h handled).2.trans step⟩
  · obtain ⟨before, after⟩ := effect.handled_carry.2 h handled
    exact ⟨precedes.trans before.precedes, after.precedes⟩

end Connection

theorem Handling.precedes (h : Handling δ) : h.before.objects.Precedes h.after.objects :=
  h.handles.carries.precedes

theorem Connection.initial_below (protocol : Protocol) :
    (initial protocol : Connection δ).objects.Below :=
  ObjectTable.initial_sound.below

/-- An event comes from an object that was there before the event. -/
theorem Connection.added_generation_lt {protocol : Protocol} {actions : List (Action δ)}
    {s : Step δ} {h : Handling δ} {queue : QueueId} {event : QueuedEvent}
    (mem : s ∈ (initial protocol).trace actions) (handled : h ∈ s.handled)
    (added : h.added? = some (queue, event)) :
    event.generation < h.before.objects.nextGeneration ∧
      h.before.objects.nextGeneration ≤
        ((initial protocol).run actions).objects.nextGeneration := by
  obtain ⟨sender, _, live, generation, _⟩ := Handling.added?_some added
  obtain ⟨found, _⟩ := ObjectTable.live?_some.1 live
  obtain ⟨earlier, later⟩ := handled_precedes _ actions s mem h handled
  have below : h.before.objects.Below := earlier.below (initial_below protocol)
  rw [← generation]
  exact ⟨below _ _ found, Nat.le_trans h.precedes.next later.next⟩

end Wayland.Client
