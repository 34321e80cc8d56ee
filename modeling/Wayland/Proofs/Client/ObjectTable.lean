import Wayland.Client.ObjectTable
import Wayland.Proofs.IdPool

/-! # Table and pool agree

The table of objects and the pool of numbers are updated by separate rules.  `ObjectTable.Sound`
says how they hang together: the numbers of the client's range that have an entry are exactly
those that the pool has handed out, generations tell entries apart, and a zombie is what is left
of an object that the compositor has heard of and not yet let go.

`Op` is an operation on a table with everything it is given.  An operation leaves entries in place
and changes them a little (`Sound.amend`), enters an object under a number without an object
(`Sound.enter`), or forgets an entry and takes its number back (`Sound.remove`).  From these three
follows that every table that operations can reach is sound, whatever numbers the compositor
sends.
-/

namespace Wayland.Client.ObjectTable

variable {δ : Type}

/-! ## What operations do to entries -/

theorem get?_of_insert {t t' : ObjectTable δ} {id : ObjectId} {entry : Entry δ}
    (entries : t'.entries = t.entries.insert id entry) (x : ObjectId) :
    t'.get? x = if x = id then some entry else t.get? x := by
  simp [get?, entries, Std.ExtTreeMap.getElem?_insert, @eq_comm _ x id]

theorem get?_put (t : ObjectTable δ) (id x : ObjectId) (entry : Entry δ) :
    (t.put id entry).get? x = if x = id then some entry else t.get? x :=
  get?_of_insert rfl x

theorem get?_remove (t : ObjectTable δ) (id x : ObjectId) :
    (t.remove id).get? x = if x = id then none else t.get? x := by
  simp [remove, get?, Std.ExtTreeMap.getElem?_erase, @eq_comm _ x id]

theorem get?_markAnnounced (t : ObjectTable δ) (id x : ObjectId) :
    (t.markAnnounced id).get? x =
      if x = id then (t.get? x).map fun entry => { entry with announced := true }
      else t.get? x := by
  by_cases same : x = id
  · subst same
    simp [markAnnounced, get?]
  · simp [markAnnounced, get?, Std.ExtTreeMap.getElem?_modify, same, @eq_comm _ id x]

theorem get?_announcements (t : ObjectTable δ) (ids : List ObjectId) (x : ObjectId) :
    (ids.foldl markAnnounced t).get? x =
      if x ∈ ids then (t.get? x).map fun entry => { entry with announced := true }
      else t.get? x := by
  induction ids generalizing t with
  | nil => simp
  | cons id ids ih =>
    rw [List.foldl_cons, ih, get?_markAnnounced]
    by_cases same : x = id <;> by_cases later : x ∈ ids <;>
      simp [same, later, Option.map_map, Function.comp_def]

theorem ids_announcements (t : ObjectTable δ) (ids : List ObjectId) :
    (ids.foldl markAnnounced t).ids = t.ids := by
  induction ids generalizing t with
  | nil => rfl
  | cons id ids ih => exact ih (t.markAnnounced id)

theorem nextGeneration_announcements (t : ObjectTable δ) (ids : List ObjectId) :
    (ids.foldl markAnnounced t).nextGeneration = t.nextGeneration := by
  induction ids generalizing t with
  | nil => rfl
  | cons id ids ih => exact ih (t.markAnnounced id)

theorem get?_reassignQueue (t : ObjectTable δ) (old new : QueueId) (x : ObjectId) :
    (t.reassignQueue old new).get? x = (t.get? x).map fun entry =>
      if entry.queue = old && entry.life = .live then { entry with queue := new } else entry := by
  simp [reassignQueue, get?, Std.ExtTreeMap.getElem?_map]

theorem get?_initial (x : ObjectId) :
    (initial : ObjectTable δ).get? x =
      if x = displayId then
        some { interface := Protocol.Core.display, version := Protocol.Core.display.version
               generation := 0, queue := QueueId.default, data := none, owned := true
               life := .live, announced := true, idDeleted := false }
      else none := by
  simp [initial, get?, Std.ExtTreeMap.getElem?_insert, @eq_comm _ x displayId]

theorem live?_some {t : ObjectTable δ} {id : ObjectId} {entry : Entry δ} :
    t.live? id = some entry ↔ t.get? id = some entry ∧ entry.life = .live := by
  simp [live?, Option.filter_eq_some_iff]

theorem current?_some {t : ObjectTable δ} {id : ObjectId} {generation : Generation}
    {entry : Entry δ} :
    t.current? id generation = some entry ↔
      t.get? id = some entry ∧ entry.life = .live ∧ entry.generation = generation := by
  simp [current?, Option.filter_eq_some_iff, live?_some, and_assoc]

/-! ## Operations -/

/-- An operation on a table, with everything it is given. -/
inductive Op (δ : Type)
  | insertClient (interface : Interface) (version : UInt32) (queue : QueueId)
  | insertServer (id : ObjectId) (interface : Interface) (version : UInt32) (queue : QueueId)
  | markAnnounced (id : ObjectId)
  | release (id : ObjectId) (generation : Generation)
  | deleteId (id : ObjectId)
  | reassignQueue (old new : QueueId)
  /-- Holders of an object attach something to it, take possession of it or choose its queue. -/
  | amend (id : ObjectId) (generation : Generation) (data : Option δ) (owned : Bool)
      (queue : QueueId)

/-- The table after an operation; one that fails leaves it as it is. -/
def Op.apply (t : ObjectTable δ) : Op δ → ObjectTable δ
  | .insertClient interface version queue =>
    match t.insertClient interface version queue with
    | .ok (_, _, t) => t
    | .error _ => t
  | .insertServer id interface version queue =>
    match t.insertServer id interface version queue with
    | .ok t => t
    | .error _ => t
  | .markAnnounced id => t.markAnnounced id
  | .release id generation => (t.release id generation).value
  | .deleteId id => (t.deleteId id).value
  | .reassignQueue old new => t.reassignQueue old new
  | .amend id generation data owned queue =>
    match t.current? id generation with
    | some entry => t.put id { entry with data, owned, queue }
    | none => t

/-- The table after operations one after the other. -/
def applyAll (t : ObjectTable δ) (ops : List (Op δ)) : ObjectTable δ := ops.foldl Op.apply t

/-! ## The invariant -/

/-- What is left of an object that the compositor has heard of and not yet let go. -/
structure IsRemnant (id : ObjectId) (entry : Entry δ) : Prop where
  client : ObjectId.isClient id = true
  announced : entry.announced = true
  notDeleted : entry.idDeleted = false
  data : entry.data = none

/-- A table in step with its pool. -/
structure Sound (t : ObjectTable δ) : Prop where
  pool : t.ids.Sound (displayId + 1)
  display : ∃ entry, t.get? displayId = some entry ∧ entry.life = .live ∧ entry.generation = 0
  taken : ∀ id, ObjectId.isClient id = true → id ≠ displayId →
    ((t.get? id).isSome ↔ t.ids.Taken id)
  distinct : ∀ a b entry other, t.get? a = some entry → t.get? b = some other →
    entry.generation = other.generation → a = b
  below : ∀ id entry, t.get? id = some entry → entry.generation < t.nextGeneration
  zombie : ∀ id entry, t.get? id = some entry → entry.life = .zombie → IsRemnant id entry

/-- Numbers of the client other than the display's are not reserved. -/
theorem reserved_le {id : ObjectId} (client : ObjectId.isClient id = true)
    (other : id ≠ displayId) : displayId + 1 ≤ id := by
  simp only [ObjectId.isClient, ObjectId.clientMin, Bool.and_eq_true, decide_eq_true_eq,
    UInt32.le_iff_toNat_le] at client
  have differs : id.toNat ≠ displayId.toNat := fun h => other (UInt32.toNat_inj.1 h)
  rw [UInt32.le_iff_toNat_le]
  simp [displayId] at client differs ⊢
  omega

theorem initial_sound : (initial : ObjectTable δ).Sound where
  pool := IdPool.startingAt_sound (by decide)
  display := ⟨_, by rw [get?_initial, if_pos rfl], rfl, rfl⟩
  taken := by
    intro id client other
    have free : ¬ (initial : ObjectTable δ).ids.Taken id := by
      rintro ⟨below, _⟩
      exact UInt32.not_lt.2 (reserved_le client other) below
    simp [get?_initial, other, free]
  distinct := by
    intro a b entry other first second _
    rw [get?_initial] at first second
    split at first
    next isDisplay =>
      split at second
      next alsoDisplay => rw [isDisplay, alsoDisplay]
      · cases second
    · cases first
  below := by
    intro id entry found
    rw [get?_initial] at found
    split at found
    · cases found; exact Nat.one_pos
    · cases found
  zombie := by
    intro id entry found dead
    rw [get?_initial] at found
    split at found
    · cases found; cases dead
    · cases found

section

variable {t t' : ObjectTable δ} {id : ObjectId}

theorem Sound.amend (sound : t.Sound) (ids : t'.ids = t.ids)
    (next : t'.nextGeneration = t.nextGeneration)
    (same : ∀ x, (t'.get? x).isSome = (t.get? x).isSome)
    (kept : ∀ x entry', t'.get? x = some entry' → ∃ entry, t.get? x = some entry ∧
      entry'.generation = entry.generation ∧ (x = displayId → entry'.life = entry.life) ∧
      (entry'.life = .zombie → IsRemnant x entry')) :
    t'.Sound where
  pool := ids ▸ sound.pool
  display := by
    obtain ⟨entry, found, live, zero⟩ := sound.display
    have present := same displayId
    rw [found, Option.isSome_some, Option.isSome_iff_exists] at present
    obtain ⟨entry', found'⟩ := present
    obtain ⟨entry₀, found₀, generation, life, _⟩ := kept displayId entry' found'
    rw [found] at found₀
    cases found₀
    exact ⟨entry', found', (life rfl).trans live, generation.trans zero⟩
  taken := by
    intro x client other
    rw [same, ids]
    exact sound.taken x client other
  distinct := by
    intro a b entry other foundA foundB equal
    obtain ⟨entry₀, found₀, generation₀, _⟩ := kept a entry foundA
    obtain ⟨entry₁, found₁, generation₁, _⟩ := kept b other foundB
    rw [generation₀, generation₁] at equal
    exact sound.distinct a b entry₀ entry₁ found₀ found₁ equal
  below := by
    intro x entry found
    obtain ⟨entry₀, found₀, generation₀, _⟩ := kept x entry found
    rw [next, generation₀]
    exact sound.below x entry₀ found₀
  zombie := by
    intro x entry found dead
    obtain ⟨_, _, _, _, remnant⟩ := kept x entry found
    exact remnant dead

/-- A live object with a new generation may be entered under any number but the display's, as long
    as the pool knows about it. -/
theorem Sound.enter {entry : Entry δ} (sound : t.Sound) (other : id ≠ displayId)
    (lookup : ∀ x, t'.get? x = if x = id then some entry else t.get? x)
    (generation : entry.generation = t.nextGeneration) (live : entry.life = .live)
    (next : t'.nextGeneration = t.nextGeneration + 1) (pool : t'.ids.Sound (displayId + 1))
    (taken : ∀ x, ObjectId.isClient x = true → (t'.ids.Taken x ↔ t.ids.Taken x ∨ x = id)) :
    t'.Sound where
  pool := pool
  display := by
    obtain ⟨display, found, rest⟩ := sound.display
    exact ⟨display, by rw [lookup, if_neg other.symm, found], rest⟩
  taken := by
    intro x client differs
    rw [lookup, taken x client, ← sound.taken x client differs]
    by_cases same : x = id <;> simp [same]
  distinct := by
    -- The new generation lies above all others.
    intro a b first second foundA foundB equal
    rw [lookup] at foundA foundB
    split at foundA
    next isNew =>
      split at foundB
      next alsoNew => rw [isNew, alsoNew]
      · cases foundA
        have old := sound.below b second foundB
        rw [← equal, generation] at old
        exact absurd old (Nat.lt_irrefl _)
    · split at foundB
      · cases foundB
        have old := sound.below a first foundA
        rw [equal, generation] at old
        exact absurd old (Nat.lt_irrefl _)
      · exact sound.distinct a b first second foundA foundB equal
  below := by
    intro x found₀ found
    rw [lookup] at found
    rw [next]
    split at found
    · cases found
      rw [generation]
      exact Nat.lt_succ_self _
    · exact Nat.lt_succ_of_lt (sound.below x _ found)
  zombie := by
    intro x found₀ found dead
    rw [lookup] at found
    split at found
    · cases found
      rw [live] at dead
      cases dead
    · exact sound.zombie x _ found dead

theorem Sound.remove (sound : t.Sound) (other : id ≠ displayId) : (t.remove id).Sound where
  pool := by
    by_cases client : ObjectId.isClient id = true
    · exact sound.pool.recycle (reserved_le client other)
    · have ids : (t.remove id).ids = t.ids := IdPool.recycle_foreign (by simpa using client)
      exact ids ▸ sound.pool
  display := by
    obtain ⟨entry, found, rest⟩ := sound.display
    exact ⟨entry, by rw [get?_remove, if_neg other.symm, found], rest⟩
  taken := by
    intro x client differs
    rw [get?_remove]
    -- Only a number of the client goes back to the pool, and only that one.
    by_cases same : x = id
    · subst same
      have freed := sound.pool.taken_recycle (reserved_le client other) client x
      simpa [ObjectTable.remove] using mt freed.1 (fun h => h.2 rfl)
    · rw [if_neg same, sound.taken x client differs]
      by_cases client' : ObjectId.isClient id = true
      · have freed := sound.pool.taken_recycle (reserved_le client' other) client' x
        exact (freed.trans (and_iff_left same)).symm
      · have ids : (t.remove id).ids = t.ids := IdPool.recycle_foreign (by simpa using client')
        rw [ids]
  distinct := by
    intro a b entry second foundA foundB equal
    rw [get?_remove] at foundA foundB
    split at foundA
    · cases foundA
    · split at foundB
      · cases foundB
      · exact sound.distinct a b entry second foundA foundB equal
  below := by
    intro x entry found
    rw [get?_remove] at found
    split at found
    · cases found
    · exact sound.below x entry found
  zombie := by
    intro x entry found dead
    rw [get?_remove] at found
    split at found
    · cases found
    · exact sound.zombie x entry found dead

theorem Sound.put {entry entry' : Entry δ} (sound : t.Sound) (found : t.get? id = some entry)
    (generation : entry'.generation = entry.generation)
    (life : id = displayId → entry'.life = entry.life)
    (remnant : entry'.life = .zombie → IsRemnant id entry') : (t.put id entry').Sound := by
  refine sound.amend rfl rfl ?_ ?_
  · intro x
    rw [get?_put]
    by_cases same : x = id
    · subst same
      simp [found]
    · simp [same]
  · intro x changed lookup
    rw [get?_put] at lookup
    split at lookup
    next same =>
      cases lookup
      subst same
      exact ⟨entry, found, generation, life, remnant⟩
    · exact ⟨changed, lookup, rfl, fun _ => rfl, sound.zombie x changed lookup⟩

theorem Sound.put_live {entry entry' : Entry δ} (sound : t.Sound) (found : t.get? id = some entry)
    (live : entry.life = .live) (generation : entry'.generation = entry.generation)
    (life : entry'.life = entry.life) : (t.put id entry').Sound := by
  refine sound.put found generation (fun _ => life) ?_
  intro dead
  rw [life, live] at dead
  cases dead

end

/-! ## What each operation does -/

section

variable {t t' : ObjectTable δ} {id : ObjectId} {interface : Interface} {version : UInt32}
  {queue : QueueId} {generation : Generation}

theorem insertClient_ok
    (inserted : t.insertClient interface version queue = .ok (id, generation, t')) :
    ∃ ids, t.ids.alloc = .ok (id, ids) ∧ generation = t.nextGeneration ∧
      t' = { entries := t.entries.insert id
               { interface, version, queue, generation, data := none, owned := true, life := .live
                 announced := false, idDeleted := false }
             ids, nextGeneration := t.nextGeneration + 1 } := by
  cases handed : t.ids.alloc with
  | error cause => simp [insertClient, handed, bind, Except.bind] at inserted
  | ok result =>
    obtain ⟨number, ids⟩ := result
    simp only [insertClient, handed, bind, Except.bind] at inserted
    cases inserted
    exact ⟨ids, rfl, rfl, rfl⟩

theorem insertServer_ok (inserted : t.insertServer id interface version queue = .ok t') :
    ObjectId.isClient id = false ∧ t.live? id = none ∧
      t' = { t with
             entries := t.entries.insert id
               { interface, version, queue, generation := t.nextGeneration, data := none
                 owned := false, life := .live, announced := true, idDeleted := false }
             nextGeneration := t.nextGeneration + 1 } := by
  unfold insertServer at inserted
  split at inserted
  · cases inserted
  next foreign =>
    split at inserted
    · cases inserted
    next unused =>
      cases inserted
      exact ⟨by simpa using foreign, by simpa using unused, rfl⟩

/-- Nothing is destroyed, or an object becomes a zombie, or it is forgotten at once. -/
theorem release_cases (t : ObjectTable δ) (id : ObjectId) (generation : Generation) :
    (t.release id generation).value = t ∨
    id ≠ displayId ∧ ∃ entry, t.get? id = some entry ∧ entry.life = .live ∧
      entry.generation = generation ∧
      (ObjectId.isClient id = true ∧ entry.announced = true ∧ entry.idDeleted = false ∧
          (t.release id generation).value = t.put id { entry with data := none, life := .zombie } ∨
        (ObjectId.isClient id = true → entry.announced = true → entry.idDeleted = true) ∧
          (t.release id generation).value = t.remove id) := by
  by_cases isDisplay : id = displayId
  · exact .inl (by simp [release, isDisplay])
  · cases found : t.current? id generation with
    | none => exact .inl (by simp [release, isDisplay, found])
    | some entry =>
      obtain ⟨present, live, same⟩ := current?_some.1 found
      refine .inr ⟨isDisplay, entry, present, live, same, ?_⟩
      by_cases busy : (ObjectId.isClient id && entry.announced && !entry.idDeleted) = true
      · left
        simp only [release, isDisplay, if_false, found, busy, if_true, Logged.value_bind,
          Logged.value_pure, and_true]
        simpa [and_assoc] using busy
      · right
        simp only [release, isDisplay, if_false, found, busy]
        simpa using busy

/-- What is released is no longer in use, whether or not it was. -/
theorem current?_release (t : ObjectTable δ) {id : ObjectId} {generation : Generation}
    (other : id ≠ displayId) : (t.release id generation).value.current? id generation = none := by
  unfold release
  rw [if_neg other]
  cases found : t.current? id generation with
  | none => exact found
  | some entry =>
    dsimp only
    split
    · simp [current?, live?, get?_put]
    · simp [current?, live?, get?_remove]

/-- A number nobody uses, a zombie that may go, or a live object whose number is let go early. -/
theorem deleteId_cases (t : ObjectTable δ) (id : ObjectId) :
    t.get? id = none ∧ (t.deleteId id).value = t ∨
    (∃ entry, t.get? id = some entry ∧ entry.life = .zombie ∧
      (t.deleteId id).value = t.remove id) ∨
    ∃ entry, t.get? id = some entry ∧ entry.life = .live ∧
      (t.deleteId id).value = t.put id { entry with idDeleted := true } := by
  cases found : t.get? id with
  | none => exact .inl ⟨rfl, by simp [deleteId, found]⟩
  | some entry =>
    cases life : entry.life with
    | zombie => exact .inr (.inl ⟨entry, rfl, life, by simp [deleteId, found, life]⟩)
    | live => exact .inr (.inr ⟨entry, rfl, life, by simp [deleteId, found, life]⟩)

/-! ## Every reachable table is sound -/

theorem Sound.insertClient (sound : t.Sound)
    (inserted : t.insertClient interface version queue = .ok (id, generation, t')) :
    ObjectId.isClient id = true ∧ id ≠ displayId ∧ t.get? id = none ∧ t'.Sound := by
  obtain ⟨ids, handed, rfl, rfl⟩ := insertClient_ok inserted
  obtain ⟨low, high, free, pool, taken⟩ := sound.pool.alloc_ok handed
  rw [UInt32.le_iff_toNat_le] at low
  have other : id ≠ displayId := by
    rintro rfl
    simp [displayId] at low
  have client : ObjectId.isClient id = true := by
    simp only [ObjectId.isClient, ObjectId.clientMin, Bool.and_eq_true, decide_eq_true_eq, high,
      and_true, UInt32.le_iff_toNat_le]
    simp [displayId] at low ⊢
    omega
  have absent : t.get? id = none := by
    rw [← Option.not_isSome_iff_eq_none, sound.taken id client other]
    exact free
  exact ⟨client, other, absent,
    sound.enter other (get?_of_insert rfl) rfl rfl rfl pool fun x _ => taken x⟩

theorem Sound.insertServer (sound : t.Sound)
    (inserted : t.insertServer id interface version queue = .ok t') : t'.Sound := by
  obtain ⟨foreign, _, rfl⟩ := insertServer_ok inserted
  have other : id ≠ displayId := by
    rintro rfl
    simp [ObjectId.isClient, displayId, ObjectId.clientMin, ObjectId.clientMax] at foreign
  refine sound.enter other (get?_of_insert rfl) rfl rfl rfl sound.pool ?_
  intro x client
  have differs : x ≠ id := by
    rintro rfl
    rw [foreign] at client
    cases client
  simp [differs]

theorem Sound.markAnnounced (sound : t.Sound) : (t.markAnnounced id).Sound := by
  refine sound.amend rfl rfl ?_ ?_
  · intro x
    rw [get?_markAnnounced]
    by_cases same : x = id <;> simp [same]
  · intro x entry' lookup
    rw [get?_markAnnounced] at lookup
    split at lookup
    · rw [Option.map_eq_some_iff] at lookup
      obtain ⟨entry, found, rfl⟩ := lookup
      refine ⟨entry, found, rfl, fun _ => rfl, ?_⟩
      intro dead
      have remnant := sound.zombie x entry found dead
      exact ⟨remnant.client, rfl, remnant.notDeleted, remnant.data⟩
    · exact ⟨entry', lookup, rfl, fun _ => rfl, sound.zombie x entry' lookup⟩

theorem Sound.release (sound : t.Sound) : (t.release id generation).value.Sound := by
  obtain same | ⟨other, entry, found, _, _, ⟨client, announced, notDeleted, value⟩ | ⟨_, value⟩⟩ :=
    release_cases t id generation
  · rw [same]
    exact sound
  · rw [value]
    refine sound.put found rfl (fun isDisplay => absurd isDisplay other) ?_
    intro _
    exact ⟨client, announced, notDeleted, rfl⟩
  · rw [value]
    exact sound.remove other

theorem Sound.deleteId (sound : t.Sound) : (t.deleteId id).value.Sound := by
  obtain ⟨_, value⟩ | ⟨entry, found, dead, value⟩ | ⟨entry, found, live, value⟩ :=
    deleteId_cases t id
  · rw [value]
    exact sound
  · rw [value]
    apply sound.remove
    -- The display is alive, so a zombie has another number.
    rintro rfl
    obtain ⟨display, found', live, _⟩ := sound.display
    rw [found] at found'
    cases found'
    rw [dead] at live
    cases live
  · rw [value]
    exact sound.put_live found live rfl rfl

theorem Sound.reassignQueue {old new : QueueId} (sound : t.Sound) :
    (t.reassignQueue old new).Sound := by
  refine sound.amend rfl rfl ?_ ?_
  · intro x
    rw [get?_reassignQueue, Option.isSome_map]
  · intro x entry' lookup
    rw [get?_reassignQueue, Option.map_eq_some_iff] at lookup
    obtain ⟨entry, found, rfl⟩ := lookup
    refine ⟨entry, found, ?_, ?_, ?_⟩
    · split <;> rfl
    · intro _
      split <;> rfl
    · split
      next moved =>
        -- Only live entries move.
        intro dead
        simp at moved
        have zombie : entry.life = .zombie := dead
        rw [moved.2] at zombie
        cases zombie
      · exact sound.zombie x entry found

theorem Sound.apply (sound : t.Sound) (op : Op δ) : (op.apply t).Sound := by
  cases op with
  | insertClient interface version queue =>
    simp only [Op.apply]
    split
    next inserted => exact (sound.insertClient inserted).2.2.2
    · exact sound
  | insertServer id interface version queue =>
    simp only [Op.apply]
    split
    next inserted => exact sound.insertServer inserted
    · exact sound
  | markAnnounced id => exact sound.markAnnounced
  | release id generation => exact sound.release
  | deleteId id => exact sound.deleteId
  | reassignQueue old new => exact sound.reassignQueue
  | amend id generation data owned queue =>
    simp only [Op.apply]
    split
    next entry found =>
      obtain ⟨present, live, _⟩ := current?_some.1 found
      exact sound.put_live present live rfl rfl
    · exact sound

/-- Whatever is done to a table that starts with the display alone, it stays in step with its
    pool. -/
theorem applyAll_sound (ops : List (Op δ)) (sound : t.Sound) : (t.applyAll ops).Sound := by
  induction ops generalizing t with
  | nil => exact sound
  | cons op ops ih => exact ih (sound.apply op)

end

/-- In every table that operations can reach, the display lives under its number; a number of the
    client's range has an entry exactly if the pool has handed it out and not taken it back;
    generations are distinct and below the next one; and zombies are what they should be.  So a
    new object of the client never gets the number of an object that is still in the table. -/
theorem entries_agree_with_pool (ops : List (Op δ)) :
    let t := (initial : ObjectTable δ).applyAll ops
    (∃ entry, t.get? 1 = some entry ∧ entry.life = .live ∧ entry.generation = 0) ∧
    (∀ id, ObjectId.isClient id = true → 2 ≤ id →
      ((t.get? id).isSome ↔ id < t.ids.next ∧ id ∉ t.ids.free)) ∧
    (∀ a b entry other, t.get? a = some entry → t.get? b = some other → a ≠ b →
      entry.generation ≠ other.generation) ∧
    (∀ id entry, t.get? id = some entry → entry.generation < t.nextGeneration) ∧
    (∀ id entry, t.get? id = some entry → entry.life = .zombie →
      ObjectId.isClient id = true ∧ entry.announced = true ∧ entry.idDeleted = false ∧
        entry.data = none) ∧
    (∀ interface version queue id generation t',
      t.insertClient interface version queue = .ok (id, generation, t') →
        id ≠ 1 ∧ t.get? id = none) := by
  intro t
  have sound : t.Sound := applyAll_sound ops initial_sound
  refine ⟨sound.display, ?_, ?_, sound.below, ?_, ?_⟩
  · intro id client low
    apply sound.taken id client
    rintro rfl
    exact absurd low (by decide)
  · intro a b entry other foundA foundB differs equal
    exact differs (sound.distinct a b entry other foundA foundB equal)
  · intro id entry found dead
    obtain ⟨client, announced, notDeleted, data⟩ := sound.zombie id entry found dead
    exact ⟨client, announced, notDeleted, data⟩
  · intro interface version queue id generation t' inserted
    obtain ⟨_, other, absent, _⟩ := sound.insertClient inserted
    exact ⟨other, absent⟩

/-- An announced object that is destroyed early keeps its number busy. -/
theorem entries_agree_with_pool_zombie :
    let t := (initial : ObjectTable Unit).applyAll
      [.insertClient Protocol.Core.registry 1 0, .markAnnounced 2, .release 2 1]
    (t.live? 2).isNone ∧ 2 < t.ids.next ∧ 2 ∉ t.ids.free := by
  intro t
  obtain ⟨_, taken, _⟩ := entries_agree_with_pool (δ := Unit)
    [.insertClient Protocol.Core.registry 1 0, .markAnnounced 2, .release 2 1]
  have kept : (t.get? 2).isSome := by decide +kernel
  exact ⟨by decide +kernel, (taken 2 (by decide) (by decide)).1 kept⟩

end Wayland.Client.ObjectTable
