import Wayland.Proofs.Client.NumberReuse
import Wayland.Proofs.Client.Possession
import Wayland.Proofs.Client.QueueNumbers

/-! # Objects that the compositor never hears of

An object that has been created is a draft until a request tells the compositor of it.  A draft
that is given up is forgotten at once, and its number is free again.  `ObjectTable.Drafts` relates
a table to what it was before some drafts came into it: the old entries are there as they were, and
the others are drafts that somebody still has.  Drafts may come and go in any order, and others may
be told about meanwhile.

Once all of them have gone, the table is the one of before (`Drafts.restored`).  For the pool this
rests on its form: two pools in order that have the same numbers taken are equal.
-/

namespace Wayland.Client

variable {δ : Type}

/-! ## Tables -/

/-- An object that is in use and that the compositor has not heard of. -/
structure Entry.IsDraft (entry : Entry δ) : Prop where
  live : entry.life = .live
  unannounced : entry.announced = false

namespace ObjectTable

/-- The numbers that the pool has handed out are those of the client that have entries. -/
theorem Sound.taken_iff {t : ObjectTable δ} {id : ObjectId} (sound : t.Sound)
    (low : displayId + 1 ≤ id) :
    t.ids.Taken id ↔ ObjectId.isClient id = true ∧ (t.get? id).isSome := by
  have differs : id ≠ displayId := by
    rintro rfl
    exact absurd low (by decide)
  have least : ObjectId.clientMin ≤ id := UInt32.le_trans (by decide) low
  constructor
  · intro taken
    have client := sound.pool.isClient least taken
    exact ⟨client, (sound.taken id client differs).2 taken⟩
  · rintro ⟨client, present⟩
    exact (sound.taken id client differs).1 present

/-- The table has the entries of `base`, and besides only drafts, each of which is `pending`. -/
structure Drafts (base t : ObjectTable δ) (pending : List ObjectKey) : Prop where
  before : base.Sound
  sound : t.Sound
  next : base.nextGeneration ≤ t.nextGeneration
  kept : ∀ {id : ObjectId} {entry : Entry δ}, base.get? id = some entry → t.get? id = some entry
  new : ∀ {id : ObjectId} {entry : Entry δ}, t.get? id = some entry → base.get? id = none →
    entry.IsDraft ∧ (id, entry.generation) ∈ pending
  later : ∀ key ∈ pending, base.nextGeneration ≤ key.2

namespace Drafts

variable {base t t' : ObjectTable δ} {pending rest : List ObjectKey} {id : ObjectId}
  {generation : Generation} {interface : Interface} {version : UInt32} {queue : QueueId}
  {entry : Entry δ}

theorem refl (sound : t.Sound) : t.Drafts t [] where
  before := sound
  sound := sound
  next := Nat.le_refl _
  kept found := found
  new found absent := by
    rw [absent] at found
    cases found
  later _ member := absurd member List.not_mem_nil

theorem mono (drafts : base.Drafts t pending) (more : pending ⊆ rest)
    (later : ∀ key ∈ rest, base.nextGeneration ≤ key.2) : base.Drafts t rest :=
  { drafts with
    new := fun found absent => (drafts.new found absent).imp_right fun member => more member
    later }

/-- What has a pending key is new. -/
theorem absent (drafts : base.Drafts t pending) (member : (id, entry.generation) ∈ pending)
    (found : t.get? id = some entry) : base.get? id = none := by
  cases old : base.get? id with
  | none => rfl
  | some known =>
    obtain rfl : entry = known := Option.some.inj (found.symm.trans (drafts.kept old))
    -- What was there before has an older generation than any pending key.
    exact absurd (drafts.before.below id entry old) (Nat.not_lt.2 (drafts.later _ member))

theorem insertClient (drafts : base.Drafts t pending)
    (inserted : t.insertClient interface version queue = .ok (id, generation, t')) :
    base.Drafts t' ((id, generation) :: pending) := by
  obtain ⟨_, _, unused, sound⟩ := drafts.sound.insertClient inserted
  obtain ⟨ids, _, rfl, rfl⟩ := insertClient_ok inserted
  -- The number was free in `t`, and so in `base`, whose entries are all in `t`.
  refine ⟨drafts.before, sound, Nat.le_succ_of_le drafts.next, ?_, ?_, ?_⟩
  · intro x entry old
    have found := drafts.kept old
    have differs : x ≠ id := by
      rintro rfl
      rw [unused] at found
      cases found
    rw [get?_of_insert rfl, if_neg differs, found]
  · intro x entry found absent
    rw [get?_of_insert rfl] at found
    split at found
    next same =>
      cases found
      exact ⟨⟨rfl, rfl⟩, same ▸ List.mem_cons_self⟩
    · exact (drafts.new found absent).imp_right (List.mem_cons_of_mem _)
  · intro key member
    obtain rfl | old := List.mem_cons.1 member
    · exact drafts.next
    · exact drafts.later key old

/-- A draft leaves nothing behind when it is given up. -/
theorem release (drafts : base.Drafts t pending)
    (owner : pending.Perm ((id, generation) :: rest)) :
    base.Drafts (t.release id generation).value rest := by
  have member : (id, generation) ∈ pending := owner.mem_iff.2 List.mem_cons_self
  have later : ∀ key ∈ rest, base.nextGeneration ≤ key.2 := fun key other =>
    drafts.later key (owner.mem_iff.2 (List.mem_cons_of_mem _ other))
  have others {x : ObjectId} {entry : Entry δ} (found : t.get? x = some entry)
      (absent : base.get? x = none) (differs : (x, entry.generation) ≠ (id, generation)) :
      entry.IsDraft ∧ (x, entry.generation) ∈ rest :=
    (drafts.new found absent).imp_right fun pending =>
      (List.mem_cons.1 (owner.mem_iff.1 pending)).resolve_left differs
  obtain unchanged | ⟨notDisplay, entry, found, live, rfl, fate⟩ := release_cases t id generation
  · -- Nobody had this object any more.
    rw [unchanged]
    refine ⟨drafts.before, drafts.sound, drafts.next, drafts.kept, ?_, later⟩
    intro x entry found absent
    refine others found absent fun same => ?_
    obtain ⟨rfl, rfl⟩ := Prod.mk.inj same
    have notDisplay : x ≠ displayId := by
      rintro rfl
      obtain ⟨display, shown, _⟩ := drafts.before.display
      rw [absent] at shown
      cases shown
    have gone : (t.release x entry.generation).value.current? x entry.generation = none :=
      current?_release t notDisplay
    rw [unchanged, current?_some.2 ⟨found, (drafts.new found absent).1.live, rfl⟩] at gone
    cases gone
  · have absent : base.get? id = none := drafts.absent member found
    obtain ⟨draft, _⟩ := drafts.new found absent
    -- An entry stays behind only if the compositor knows the object, which it does not.
    obtain ⟨_, announced, _⟩ | ⟨_, removed⟩ := fate
    · rw [draft.unannounced] at announced
      cases announced
    · rw [removed]
      refine ⟨drafts.before, drafts.sound.remove notDisplay, drafts.next, ?_, ?_, later⟩
      · intro x old kept
        have differs : x ≠ id := by
          rintro rfl
          rw [absent] at kept
          cases kept
        rw [get?_remove, if_neg differs]
        exact drafts.kept kept
      · intro x other present unknown
        rw [get?_remove] at present
        split at present
        · cases present
        next differs =>
          exact others present unknown fun same => differs (Prod.mk.inj same).1

/-- The holder of a draft may change it. -/
theorem put {entry' : Entry δ} (drafts : base.Drafts t pending)
    (found : t.get? id = some entry) (member : (id, entry.generation) ∈ pending)
    (generation : entry'.generation = entry.generation) (life : entry'.life = entry.life)
    (announced : entry'.announced = entry.announced) : base.Drafts (t.put id entry') pending := by
  have absent := drafts.absent member found
  obtain ⟨draft, _⟩ := drafts.new found absent
  refine ⟨drafts.before, drafts.sound.put_live found draft.live generation life, drafts.next, ?_,
    ?_, drafts.later⟩
  · intro x old kept
    have differs : x ≠ id := by
      rintro rfl
      rw [absent] at kept
      cases kept
    rw [get?_put, if_neg differs]
    exact drafts.kept kept
  · intro x other present unknown
    rw [get?_put] at present
    split at present
    next same =>
      cases present
      subst same
      exact ⟨⟨life.trans draft.live, announced.trans draft.unannounced⟩, generation ▸ member⟩
    · exact drafts.new present unknown

/-- The compositor hears of an object that is no draft. -/
theorem markAnnounced (drafts : base.Drafts t pending) (apart : ∀ key ∈ pending, key.1 ≠ id) :
    (base.markAnnounced id).Drafts (t.markAnnounced id) pending := by
  refine ⟨drafts.before.markAnnounced, drafts.sound.markAnnounced, drafts.next, ?_, ?_,
    drafts.later⟩
  · intro x entry old
    rw [get?_markAnnounced] at old ⊢
    split at old
    next same =>
      obtain ⟨known, found, rfl⟩ := Option.map_eq_some_iff.1 old
      rw [if_pos same, drafts.kept found]
      rfl
    next differs =>
      rw [if_neg differs]
      exact drafts.kept old
  · intro x entry found absent
    rw [get?_markAnnounced] at found absent
    split at found
    next same =>
      rw [if_pos same, Option.map_eq_none_iff] at absent
      obtain ⟨known, present, rfl⟩ := Option.map_eq_some_iff.1 found
      exact absurd same (apart _ (drafts.new present absent).2)
    next differs =>
      rw [if_neg differs] at absent
      exact drafts.new found absent

theorem announcements (drafts : base.Drafts t pending) (ids : List ObjectId)
    (apart : ∀ id ∈ ids, ∀ key ∈ pending, key.1 ≠ id) :
    (ids.foldl ObjectTable.markAnnounced base).Drafts (ids.foldl ObjectTable.markAnnounced t)
      pending := by
  induction ids generalizing base t with
  | nil => exact drafts
  | cons id ids ih =>
    exact ih (drafts.markAnnounced (apart id List.mem_cons_self)) fun other later =>
      apart other (List.mem_cons_of_mem _ later)

/-- Without drafts only the generations have moved on. -/
theorem restored (drafts : base.Drafts t []) :
    t = { base with nextGeneration := t.nextGeneration } := by
  have same (x : ObjectId) : t.get? x = base.get? x := by
    cases old : base.get? x with
    | some entry => exact drafts.kept old
    | none =>
      refine Option.eq_none_iff_forall_ne_some.2 fun entry found => ?_
      exact absurd (drafts.new found old).2 List.not_mem_nil
  have entries : t.entries = base.entries := Std.ExtTreeMap.ext_getElem? same
  have ids : t.ids = base.ids := by
    -- The order in which numbers came back leaves no mark on a pool.
    refine drafts.sound.pool.unique drafts.before.pool.toOrdered fun x low => ?_
    rw [drafts.sound.taken_iff low, drafts.before.taken_iff low, same]
  obtain ⟨_, _, _⟩ := t
  obtain rfl := entries
  obtain rfl := ids
  rfl

end Drafts

end ObjectTable

/-! ## Connections -/

/-- The numbers of the new objects that a request tells of. -/
def Request.newIds (r : Request) : List ObjectId := r.args.filterMap Argument.newId?

/-- The request carries the number of an object: it is made of that object, or one of its arguments
    is the number. -/
def Request.Carries (r : Request) (id : ObjectId) : Prop :=
  r.object.id = id ∨ .newId id ∈ r.args ∨ .object (some id) ∈ r.args

instance (r : Request) (id : ObjectId) : Decidable (r.Carries id) :=
  inferInstanceAs (Decidable (_ ∨ _ ∨ _))

theorem Request.carries_of_mem_newIds {r : Request} {id : ObjectId} (member : id ∈ r.newIds) :
    r.Carries id := by
  obtain ⟨arg, given, new⟩ := List.mem_filterMap.1 member
  cases arg with
  | newId number =>
    cases new
    exact .inr (.inl given)
  | _ => cases new

namespace Connection

/-- The objects of a connection once the compositor has heard of those that requests tell of. -/
def announced (c : Connection δ) (log : List Request) : ObjectTable δ :=
  (log.flatMap Request.newIds).foldl ObjectTable.markAnnounced c.objects

theorem announced_concat (c : Connection δ) (log : List Request) (r : Request) :
    c.announced (log ++ [r]) = r.newIds.foldl ObjectTable.markAnnounced (c.announced log) := by
  simp [announced]

/-- The connection is `base` with some drafts, after it has accepted the requests in `log`. -/
structure Drafts (base : Connection δ) (log : List Request) (c : Connection δ)
    (pending : List ObjectKey) : Prop where
  closed : c.closed = base.closed
  rest : log = [] → c = { base with objects := c.objects }
  objects : base.closed = false → (base.announced log).Drafts c.objects pending
  empty : base.closed = true → log = [] ∧ c.objects = base.objects ∧
    ∀ id, base.objects.get? id = none

namespace Drafts

variable {base c c' : Connection δ} {log : List Request} {pending left : List ObjectKey}
  {o : ObjectRef}

theorem refl (protocol : Protocol) (actions : List (Action δ)) :
    ((initial protocol : Connection δ).run actions).Drafts [] ((initial protocol).run actions) []
    where
  closed := rfl
  rest _ := rfl
  objects isOpen := .refl (accounted_open isOpen).2
  empty closed := ⟨rfl, rfl, empty_of_closed protocol actions closed⟩

/-- A connection that changes nothing but its objects. -/
theorem withObjects {objects : ObjectTable δ} (drafts : base.Drafts log c pending)
    (changed : base.closed = false → (base.announced log).Drafts objects left)
    (closed : base.closed = true → objects = c.objects) :
    base.Drafts log { c with objects } left where
  closed := drafts.closed
  rest quiet := by
    have same := drafts.rest quiet
    rw [same]
  objects := changed
  empty gone := by
    obtain ⟨quiet, same, none⟩ := drafts.empty gone
    exact ⟨quiet, (closed gone).trans same, none⟩

theorem of_usable (drafts : base.Drafts log c pending) (usable : c.check = .ok ()) :
    base.closed = false :=
  drafts.closed ▸ open_of_check usable

theorem withObjects_open {objects : ObjectTable δ} (drafts : base.Drafts log c pending)
    (usable : c.check = .ok ())
    (changed : (base.announced log).Drafts c.objects pending →
      (base.announced log).Drafts objects left) : base.Drafts log { c with objects } left := by
  have isOpen := drafts.of_usable usable
  refine drafts.withObjects (fun _ => changed (drafts.objects isOpen)) fun closed => ?_
  exact absurd (isOpen.symm.trans closed) Bool.false_ne_true

theorem create {factory : ObjectRef} {interface : Interface} {version : UInt32}
    (drafts : base.Drafts log c pending)
    (created : c.createObject factory interface version = .ok (o, c')) :
    base.Drafts log c' (o.key :: pending) := by
  obtain ⟨entry, objects, usable, _, inserted, rfl⟩ := createObject_ok created
  exact drafts.withObjects_open usable fun objects => objects.insertClient inserted

theorem release (drafts : base.Drafts log c pending) (owner : pending.Perm (o.key :: left)) :
    base.Drafts log (c.step (.release o)).after left := by
  refine drafts.withObjects (fun isOpen => (drafts.objects isOpen).release owner) fun closed => ?_
  obtain ⟨_, same, none⟩ := drafts.empty closed
  obtain unchanged | ⟨_, entry, found, _⟩ := ObjectTable.release_cases c.objects o.id o.generation
  · exact unchanged
  · rw [same, none] at found
    cases found

/-- Nobody has anything of a closed connection. -/
theorem abandon (drafts : base.Drafts log c pending) (closed : c.closed = true) :
    base.Drafts log c left :=
  { drafts with
    objects := fun isOpen => absurd (closed.symm.trans drafts.closed) (by simp [isOpen]) }

theorem perm (drafts : base.Drafts log c pending) (same : pending.Perm left) :
    base.Drafts log c left :=
  { drafts with
    objects := fun isOpen => (drafts.objects isOpen).mono same.subset fun key member =>
      (drafts.objects isOpen).later key (same.mem_iff.2 member) }

/-- Without drafts only the generations have moved on, and what the requests have done. -/
theorem restored (drafts : base.Drafts log c []) :
    ∃ next, base.objects.nextGeneration ≤ next ∧
      c.objects = { base.announced log with nextGeneration := next } ∧
      (log = [] → c = { base with objects := { base.objects with nextGeneration := next } }) := by
  have objects : base.objects.nextGeneration ≤ c.objects.nextGeneration ∧
      c.objects = { base.announced log with nextGeneration := c.objects.nextGeneration } := by
    cases closed : base.closed with
    | false =>
      have next := (drafts.objects closed).next
      rw [announced, ObjectTable.nextGeneration_announcements] at next
      exact ⟨next, (drafts.objects closed).restored⟩
    | true =>
      obtain ⟨rfl, same, _⟩ := drafts.empty closed
      rw [same]
      exact ⟨Nat.le_refl _, rfl⟩
  refine ⟨_, objects.1, objects.2, ?_⟩
  rintro rfl
  exact (drafts.rest rfl).trans (congrArg (fun objects => { base with objects }) objects.2)

end Drafts

end Connection

/-- The action changes a draft. -/
inductive Action.Shapes (pending : List ObjectKey) : Action δ → Prop
  | attach {o : ObjectRef} {interface : Interface} {handlers : Nat} {data : δ}
      (member : o.key ∈ pending) : Shapes pending (.attach o interface handlers data)
  | setQueue {o : ObjectRef} {queue : QueueId} (member : o.key ∈ pending) :
      Shapes pending (.setQueue o queue)

section

variable {s : Step δ} {base : Connection δ} {log : List Request} {pending : List ObjectKey}

/-- Drafts may get handlers and queues. -/
theorem Step.Effect.drafts_shaped (effect : s.Effect) (drafts : base.Drafts log s.before pending)
    (shapes : s.action.Shapes pending) : base.Drafts log s.after pending := by
  cases effect with
  | refused | attachAgain => exact drafts
  | attach usable found =>
    cases shapes with
    | attach member =>
      obtain ⟨present, _, same⟩ := ObjectTable.current?_some.1 found
      exact drafts.withObjects_open usable fun objects =>
        objects.put present (by rw [same]; exact member) rfl rfl rfl
  | setQueue usable _ found =>
    cases shapes with
    | setQueue member =>
      obtain ⟨present, _, same⟩ := ObjectTable.current?_some.1 found
      exact drafts.withObjects_open usable fun objects =>
        objects.put present (by rw [same]; exact member) rfl rfl rfl
  | _ => cases shapes

/-- The compositor hears of objects that are no drafts. -/
theorem Step.Effect.drafts_announced {r : Request} (effect : s.Effect)
    (drafts : base.Drafts log s.before pending) (accepted : s.accepted? = some r)
    (plain : r.final = false) (apart : ∀ key ∈ pending, ¬ r.Carries key.1) :
    base.Drafts (log ++ [r]) s.after pending := by
  cases effect with
  | request usable _ heard released =>
    cases accepted
    cases plain
    have isOpen := drafts.of_usable usable
    -- Outgoing bytes and descriptors have changed, but `rest` speaks of an empty log only.
    refine ⟨drafts.closed, fun quiet => absurd quiet (by simp), fun _ => ?_, fun closed =>
      absurd (isOpen.symm.trans closed) Bool.false_ne_true⟩
    rw [Connection.announced_concat, released, heard]
    refine (drafts.objects isOpen).announcements _ fun id told key member same => ?_
    exact apart key member (Request.carries_of_mem_newIds (same ▸ told))
  | @refused _ action => cases action <;> cases accepted
  | _ => cases accepted

end

end Wayland.Client
