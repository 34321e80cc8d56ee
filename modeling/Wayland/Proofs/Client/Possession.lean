import Wayland.Proofs.Client.Conservation
import Wayland.Proofs.Client.Handlings
import Wayland.Proofs.Client.TableHistory

/-! # Owners of objects

The table marks the objects that have an owner.  It does not know who the owners are, and it obeys
whoever releases an object.  `Dealing` is what can happen when the application plays by the rules:
an owner comes into being when an object is created or adopted, and only an owner releases its
object or makes a last request on it.  Everybody else may do the rest, and the compositor may send
what it likes.

`Custody` is the invariant: the owners are exactly those of the marked objects, one each, and what
they gave up is never in use again.
-/

namespace Wayland.Client

variable {δ : Type}

/-- What tells an object from all others of its connection, at any time. -/
abbrev ObjectKey := ObjectId × Generation

def ObjectRef.key (o : ObjectRef) : ObjectKey := (o.id, o.generation)

/-! ## What the table says about owners -/

/-- The generation of an entry that is alive, and whether somebody owns it. -/
def Entry.tenure? (entry : Entry δ) : Option (Generation × Bool) :=
  if entry.life = .live then some (entry.generation, entry.owned) else none

namespace ObjectTable

def tenure? (t : ObjectTable δ) (id : ObjectId) : Option (Generation × Bool) :=
  (t.get? id).bind Entry.tenure?

variable {t t' : ObjectTable δ} {id : ObjectId} {entry entry' : Entry δ} {generation : Generation}
  {owned : Bool}

theorem tenure?_some : t.tenure? id = some (generation, owned) ↔
    ∃ entry, t.live? id = some entry ∧ entry.generation = generation ∧ entry.owned = owned := by
  simp [tenure?, Entry.tenure?, Option.bind_eq_some_iff, live?_some, and_assoc]

theorem tenure?_none : t.tenure? id = none ↔ t.live? id = none := by
  cases found : t.get? id <;> simp [tenure?, Entry.tenure?, live?, found, Option.filter]

theorem current?_isSome_iff : (t.current? id generation).isSome = true ↔
    ∃ owned, t.tenure? id = some (generation, owned) := by
  simp only [Option.isSome_iff_exists, tenure?_some, current?, Option.filter_eq_some_iff,
    decide_eq_true_eq]
  constructor
  · rintro ⟨entry, live, same⟩
    exact ⟨entry.owned, entry, live, same, rfl⟩
  · rintro ⟨_, entry, live, same, _⟩
    exact ⟨entry, live, same⟩

theorem tenure?_of_insert (entries : t'.entries = t.entries.insert id entry) (x : ObjectId) :
    t'.tenure? x = if x = id then entry.tenure? else t.tenure? x := by
  unfold tenure?
  rw [get?_of_insert entries]
  split <;> rfl

theorem tenure?_remove (x : ObjectId) :
    (t.remove id).tenure? x = if x = id then none else t.tenure? x := by
  unfold tenure?
  rw [get?_remove]
  split <;> rfl

theorem tenure?_put (x : ObjectId) :
    (t.put id entry).tenure? x = if x = id then entry.tenure? else t.tenure? x :=
  tenure?_of_insert rfl x

theorem tenure?_put_same (found : t.get? id = some entry)
    (same : entry'.tenure? = entry.tenure?) (x : ObjectId) :
    (t.put id entry').tenure? x = t.tenure? x := by
  rw [tenure?_put]
  split
  next here => rw [here, same, tenure?, found, Option.bind_some]
  · rfl

theorem tenure?_markAnnounced (x : ObjectId) : (t.markAnnounced id).tenure? x = t.tenure? x := by
  unfold tenure?
  rw [get?_markAnnounced]
  split
  · cases t.get? x <;> rfl
  · rfl

theorem tenure?_reassignQueue (old new : QueueId) (x : ObjectId) :
    (t.reassignQueue old new).tenure? x = t.tenure? x := by
  unfold tenure?
  rw [get?_reassignQueue]
  cases t.get? x with
  | none => rfl
  | some entry =>
    simp only [Option.map_some, Option.bind_some]
    split <;> rfl

/-- The compositor cannot end the life of an object by letting go of its number. -/
theorem tenure?_deleteId (x : ObjectId) : (t.deleteId id).value.tenure? x = t.tenure? x := by
  obtain ⟨_, value⟩ | ⟨entry, found, dead, value⟩ | ⟨entry, found, _, value⟩ := deleteId_cases t id
  · rw [value]
  · rw [value, tenure?_remove]
    split
    next here => simp [tenure?, here, found, Entry.tenure?, dead]
    · rfl
  · rw [value]
    refine tenure?_put_same found ?_ x
    rfl

theorem tenure?_release (other : id ≠ displayId)
    (current : t.tenure? id = some (generation, owned)) (x : ObjectId) :
    (t.release id generation).value.tenure? x = if x = id then none else t.tenure? x := by
  obtain ⟨entry, live, same, _⟩ := tenure?_some.1 current
  have found : t.current? id generation = some entry := by
    simp [current?, live, same]
  unfold release
  rw [if_neg other, found]
  dsimp only
  split
  · exact tenure?_put x
  · exact tenure?_remove x

end ObjectTable

/-! ## Owners and table agree -/

open ObjectTable (tenure?_some tenure?_none)

/-- The objects that have an owner, apart from the display, are those in `held`.  All objects of
    the client have one.  Those in `gone` are not alive. -/
structure Possessed (t : ObjectTable δ) (held gone : List ObjectKey) : Prop where
  sound : t.Sound
  mem_held : ∀ id generation,
    (id, generation) ∈ held ↔ id ≠ displayId ∧ t.tenure? id = some (generation, true)
  client : ∀ id generation, ObjectId.isClient id = true → t.tenure? id ≠ some (generation, false)
  old : ∀ key ∈ gone, key.2 < t.nextGeneration
  dead : ∀ key ∈ gone, ∀ owned, t.tenure? key.1 ≠ some (key.2, owned)

namespace Possessed

variable {t t' : ObjectTable δ} {held held' gone : List ObjectKey} {id : ObjectId}
  {generation : Generation}

theorem initial : Possessed (ObjectTable.initial : ObjectTable δ) [] [] where
  sound := ObjectTable.initial_sound
  mem_held := by
    intro id generation
    by_cases isDisplay : id = displayId <;>
      simp [isDisplay, ObjectTable.tenure?, ObjectTable.get?_initial]
  client := by
    intro id generation _
    by_cases isDisplay : id = displayId <;>
      simp [isDisplay, ObjectTable.tenure?, ObjectTable.get?_initial, Entry.tenure?]
  old := by simp
  dead := by simp

theorem current (possessed : Possessed t held gone) {key : ObjectKey} (mem : key ∈ held) :
    (t.current? key.1 key.2).isSome = true :=
  ObjectTable.current?_isSome_iff.2 ⟨true, ((possessed.mem_held key.1 key.2).1 mem).2⟩

theorem not_gone (possessed : Possessed t held gone) {o : ObjectRef} {entry : Entry δ}
    (found : t.current? o.id o.generation = some entry) : o.key ∉ gone := by
  intro mem
  obtain ⟨owned, current⟩ := ObjectTable.current?_isSome_iff.1 (Option.isSome_of_eq_some found)
  exact possessed.dead _ mem owned current

theorem congr (possessed : Possessed t held gone) (same : ∀ key, key ∈ held' ↔ key ∈ held) :
    Possessed t held' gone where
  sound := possessed.sound
  mem_held := fun id generation => (same _).trans (possessed.mem_held id generation)
  client := possessed.client
  old := possessed.old
  dead := possessed.dead

/-- An object that is not alive never will be. -/
theorem bury (possessed : Possessed t held gone) {key : ObjectKey}
    (old : key.2 < t.nextGeneration) (dead : ∀ owned, t.tenure? key.1 ≠ some (key.2, owned)) :
    Possessed t held (gone ++ [key]) where
  sound := possessed.sound
  mem_held := possessed.mem_held
  client := possessed.client
  old := by simpa [or_imp, forall_and, old] using possessed.old
  dead := by
    intro x mem
    obtain earlier | rfl : x ∈ gone ∨ x = key := by simpa using mem
    · exact possessed.dead x earlier
    · exact dead

theorem amend (possessed : Possessed t held gone) (sound : t'.Sound)
    (next : t'.nextGeneration = t.nextGeneration) (same : ∀ x, t'.tenure? x = t.tenure? x) :
    Possessed t' held gone where
  sound := sound
  mem_held := by simpa [same] using possessed.mem_held
  client := by simpa [same] using possessed.client
  old := by simpa [next] using possessed.old
  dead := by simpa [same] using possessed.dead

/-- One number changes hands. -/
theorem update {new : Option (Generation × Bool)} (possessed : Possessed t held gone)
    (sound : t'.Sound) (next : t.nextGeneration ≤ t'.nextGeneration) (other : id ≠ displayId)
    (lookup : ∀ x, t'.tenure? x = if x = id then new else t.tenure? x)
    (here : ∀ g, (id, g) ∈ held' ↔ new = some (g, true))
    (elsewhere : ∀ x g, x ≠ id → ((x, g) ∈ held' ↔ (x, g) ∈ held))
    (client : ∀ g, ObjectId.isClient id = true → new ≠ some (g, false))
    (fresh : ∀ g owned, (id, g) ∈ gone → new ≠ some (g, owned)) :
    Possessed t' held' gone where
  sound := sound
  mem_held := by
    intro x g
    rw [lookup]
    by_cases same : x = id
    · simp [same, here, other]
    · simp [same, elsewhere, possessed.mem_held]
  client := by
    intro x g
    rw [lookup]
    by_cases same : x = id
    · simpa [same] using client g
    · simpa [same] using possessed.client x g
  old := fun key mem => Nat.lt_of_lt_of_le (possessed.old key mem) next
  dead := by
    rintro ⟨x, g⟩ mem owned
    rw [lookup]
    by_cases same : x = id
    · subst same
      simpa using fresh g owned mem
    · simpa [same] using possessed.dead (x, g) mem owned

/-! ### Operations -/

theorem insertServer {interface : Interface} {version : UInt32} {queue : QueueId}
    (possessed : Possessed t held gone)
    (inserted : t.insertServer id interface version queue = .ok t') :
    Possessed t' held gone := by
  have sound := possessed.sound.insertServer inserted
  obtain ⟨foreign, unused, rfl⟩ := ObjectTable.insertServer_ok inserted
  have other : id ≠ displayId := by
    rintro rfl
    exact absurd foreign (by decide)
  have vacant : t.tenure? id = none := tenure?_none.2 unused
  refine possessed.update sound (Nat.le_succ _) other
    (fun x => ObjectTable.tenure?_of_insert rfl x) ?_ (fun _ _ _ => .rfl) ?_ ?_
  · intro g
    simp [possessed.mem_held, vacant, Entry.tenure?]
  · intro g isClient
    rw [foreign] at isClient
    cases isClient
  · -- The new generation lies above all that are gone.
    intro g owned mem same
    simp only [Entry.tenure?, if_true, Option.some.injEq, Prod.mk.injEq] at same
    exact absurd (possessed.old _ mem) (by simp [← same.1])

theorem insertClient {interface : Interface} {version : UInt32} {queue : QueueId}
    (possessed : Possessed t held gone)
    (inserted : t.insertClient interface version queue = .ok (id, generation, t')) :
    Possessed t' ((id, generation) :: held) gone ∧ (id, generation) ∉ held ∧
      (id, generation) ∉ gone := by
  obtain ⟨_, other, absent, sound⟩ := possessed.sound.insertClient inserted
  obtain ⟨_, _, rfl, rfl⟩ := ObjectTable.insertClient_ok inserted
  have vacant : t.tenure? id = none := by simp [ObjectTable.tenure?, absent]
  have unheld : ∀ g, (id, g) ∉ held := by simp [possessed.mem_held, vacant]
  have fresh : (id, t.nextGeneration) ∉ gone := by
    intro mem
    exact Nat.lt_irrefl _ (possessed.old _ mem)
  refine ⟨?_, unheld _, fresh⟩
  refine possessed.update sound (Nat.le_succ _) other
    (fun x => ObjectTable.tenure?_of_insert rfl x) ?_ ?_ ?_ ?_
  · intro g
    simp [unheld, Entry.tenure?, eq_comm]
  · intro x g differs
    simp [differs]
  · simp [Entry.tenure?]
  · intro g owned mem same
    simp only [Entry.tenure?, if_true, Option.some.injEq, Prod.mk.injEq] at same
    exact fresh (same.1 ▸ mem)

theorem adopt {entry : Entry δ} (possessed : Possessed t held gone)
    (found : t.live? id = some entry) (free : entry.owned = false) :
    Possessed (t.put id { entry with owned := true }) ((id, entry.generation) :: held) gone ∧
      (id, entry.generation) ∉ held ∧ (id, entry.generation) ∉ gone := by
  obtain ⟨present, live⟩ := ObjectTable.live?_some.1 found
  have vacant : t.tenure? id = some (entry.generation, false) :=
    tenure?_some.2 ⟨entry, found, rfl, free⟩
  have unheld : ∀ g, (id, g) ∉ held := by simp [possessed.mem_held, vacant]
  have alive : (id, entry.generation) ∉ gone := fun mem => possessed.dead _ mem false vacant
  -- The display has an owner from the start, so nobody can adopt it.
  have other : id ≠ displayId := by
    rintro rfl
    exact possessed.client _ _ (by decide) vacant
  refine ⟨?_, unheld _, alive⟩
  refine possessed.update (possessed.sound.put_live present live rfl rfl) (Nat.le_refl _) other
    ObjectTable.tenure?_put ?_ ?_ ?_ ?_
  · intro g
    simp [unheld, Entry.tenure?, live, eq_comm]
  · intro x g differs
    simp [differs]
  · simp [Entry.tenure?, live]
  · intro g owned mem same
    simp only [Entry.tenure?, live, if_true, Option.some.injEq, Prod.mk.injEq] at same
    exact alive (same.1 ▸ mem)

theorem release {key : ObjectKey} (possessed : Possessed t held gone) (nodup : held.Nodup)
    (parts : held.Perm (key :: held')) :
    Possessed (t.release key.1 key.2).value held' (gone ++ [key]) := by
  obtain ⟨id, generation⟩ := key
  obtain ⟨other, current⟩ := (possessed.mem_held id generation).1 (parts.mem_iff.2 (by simp))
  obtain ⟨entry, found, same, _⟩ := tenure?_some.1 current
  have lookup := ObjectTable.tenure?_release other current
  have rest : (id, generation) ∉ held' := (List.nodup_cons.1 (parts.nodup_iff.1 nodup)).1
  have next : (t.release id generation).value.nextGeneration = t.nextGeneration := by
    obtain value | ⟨_, _, _, _, _, ⟨_, _, _, value⟩ | ⟨_, value⟩⟩ :=
      ObjectTable.release_cases t id generation <;> rw [value] <;> rfl
  refine bury (possessed.update possessed.sound.release (Nat.le_of_eq next.symm) other lookup
    ?_ ?_ (by simp) (by simp)) ?_ ?_
  · intro g
    -- Whoever held the number held this generation of it.
    simp only [reduceCtorEq, iff_false]
    intro mem
    have held := (possessed.mem_held id g).1 (parts.mem_iff.2 (List.mem_cons_of_mem _ mem))
    rw [current] at held
    cases held.2
    exact rest mem
  · intro x g differs
    rw [parts.mem_iff]
    simp [differs]
  · rw [next, ← same]
    exact possessed.sound.below id entry (ObjectTable.live?_some.1 found).1
  · simp [lookup]

theorem announcements (possessed : Possessed t held gone) (ids : List ObjectId) :
    Possessed (ids.foldl ObjectTable.markAnnounced t) held gone := by
  induction ids generalizing t with
  | nil => exact possessed
  | cons id ids ih =>
    exact ih (possessed.amend possessed.sound.markAnnounced rfl
      ObjectTable.tenure?_markAnnounced)

theorem deleteId (possessed : Possessed t held gone) :
    Possessed (t.deleteId id).value held gone := by
  refine possessed.amend possessed.sound.deleteId ?_ ObjectTable.tenure?_deleteId
  obtain ⟨_, value⟩ | ⟨_, _, _, value⟩ | ⟨_, _, _, value⟩ := ObjectTable.deleteId_cases t id <;>
    rw [value] <;> rfl

/-- Whatever a holder of an object changes about it, except its life and its owner. -/
theorem put {entry entry' : Entry δ} (possessed : Possessed t held gone)
    (found : t.current? id generation = some entry)
    (generations : entry'.generation = entry.generation) (life : entry'.life = entry.life)
    (owned : entry'.owned = entry.owned) : Possessed (t.put id entry') held gone := by
  obtain ⟨present, live, _⟩ := ObjectTable.current?_some.1 found
  refine possessed.amend (possessed.sound.put_live present live generations life) rfl ?_
  exact ObjectTable.tenure?_put_same present (by simp [Entry.tenure?, generations, life, owned])

/-! ### Messages -/

theorem enterNewObjects {protocol : Protocol} {sender : ObjectId} {entry : Entry δ}
    {spec : MessageSpec} {index : Nat} {args : List Argument} {result : Option NumberConflict}
    (possessed : Possessed t held gone)
    (entered : (Connection.enterNewObjects protocol sender entry spec index args t).value =
      (result, t')) : Possessed t' held gone := by
  induction args generalizing index t with
  | nil =>
    cases entered
    exact possessed
  | cons arg args ih =>
    unfold Connection.enterNewObjects at entered
    split at entered
    · exact ih possessed entered
    · split at entered
      · exact ih possessed entered
      · split at entered
        · cases entered
          exact possessed
        next inserted => exact ih (possessed.insertServer inserted) entered

theorem handle {c c' : Connection δ} {header : Wire.Header} {body : Wire.Bytes}
    {fault : Option FatalError} (possessed : Possessed c.objects held gone)
    (handles : Connection.Handles c header body fault c') : Possessed c'.objects held gone := by
  cases handles with
  | deleteId => exact possessed.deleteId
  | conflict _ _ _ _ _ entered | queued _ _ _ _ _ entered =>
    exact possessed.enterNewObjects entered
  | _ => exact possessed

theorem absorb {c : Connection δ} (possessed : Possessed c.objects held gone) :
    Possessed c.absorb.value.objects held gone := by
  refine Connection.absorb_invariant (I := fun _ d => Possessed d.objects held gone) ?_ ?_
    possessed
  · intro _ h before
    exact handle (c := h.before.withBytes h.rest) before h.handles
  · intro _ d error before
    rw [Connection.fail_value]
    exact before

end Possessed

/-! ## Steps -/

/-- Whether an action makes an owner, or is for owners only. -/
def Action.concernsOwner : Action δ → Bool
  | .create _ _ _ | .adopt _ _ | .release _ => true
  | .request _ _ _ final _ => final
  | _ => false

/-- The object that is released in a step, by itself or with a last request. -/
def Step.released? (s : Step δ) : Option ObjectKey :=
  match s.action with
  | .release o => some o.key
  | _ => (s.accepted?.filter (·.final)).map (·.object.key)

theorem Step.not_final {s : Step δ} {r : Request} (apart : s.action.concernsOwner = false)
    (made : s.accepted? = some r) : r.final = false := by
  unfold accepted? at made
  split at made
  next requested _ =>
    cases made
    rw [requested] at apart
    exact apart
  · cases made

theorem Step.released?_none {s : Step δ} (apart : s.action.concernsOwner = false) :
    s.released? = none := by
  unfold released?
  split
  next releases =>
    rw [releases] at apart
    cases apart
  · cases made : s.accepted? with
    | none => rfl
    | some r => simp [Option.filter, not_final apart made]

/-- Nothing else changes who owns what, whatever arrives meanwhile. -/
theorem Step.Effect.possessed {s : Step δ} {held gone : List ObjectKey} (effect : s.Effect)
    (apart : s.action.concernsOwner = false) (isOpen : s.after.closed = false)
    (possessed : Possessed s.before.objects held gone) :
    Possessed s.after.objects held gone := by
  have reading : ∀ outcomes, s.action = .read outcomes → Possessed s.after.objects held gone := by
    intro outcomes reads
    obtain ⟨_, _, _, noRead⟩ | ⟨_, _, _, after⟩ | ⟨outcomes, gate, _, _, _, _, _, after⟩ :=
      effect.arrival_cases
    · exact absurd reads (noRead outcomes)
    · rw [after]
      exact possessed
    · rw [after]
      exact Possessed.absorb (c := { s.before with gate }.filled outcomes) possessed
  cases effect with
  | read | withdraw => exact reading _ rfl
  | create | adopt | release => cases apart
  | request _ _ heard released =>
    cases apart
    subst heard released
    exact possessed.announcements _
  | attach _ found => exact possessed.put found rfl rfl rfl
  | setQueue _ _ found => exact possessed.put found rfl rfl rfl
  | destroyQueue =>
    exact possessed.amend possessed.sound.reassignQueue rfl
      (ObjectTable.tenure?_reassignQueue _ _)
  | close => cases isOpen
  | _ => exact possessed

/-- A request is accepted only if its object is in use. -/
theorem Connection.accepted_current {c : Connection δ} {action : Action δ} {r : Request}
    (accepted : (c.step action).accepted? = some r) :
    c.check = .ok () ∧ ∃ entry, c.current? r.object = some entry := by
  unfold Step.accepted? at accepted
  split at accepted
  next o opcode args final outcomes made granted =>
    cases accepted
    obtain rfl : action = .request o opcode args final outcomes := made
    obtain ⟨cause, value⟩ | ⟨entry, _, _, _, _, usable, found, _⟩ :=
      sendRequest_value c o opcode args final outcomes
    · simp [step, perform, value, refusal] at granted
    · exact ⟨usable, entry, found⟩
  · cases accepted

/-! ## Dealings -/

/-- What can happen to a connection and to the owners of its objects.  The relation shows what an
    owner has given up and the request that was accepted. -/
inductive Dealing (c : Connection δ) (held : List ObjectKey) :
    Option ObjectKey → Option Request → Connection δ → List ObjectKey → Prop
  | idle {held' : List ObjectKey} (same : held.Perm held') : Dealing c held none none c held'
  | work {action : Action δ} {request : Option Request} (apart : action.concernsOwner = false)
      (made : (c.step action).accepted? = request) :
    Dealing c held none request (c.step action).after held
  | create {factory o : ObjectRef} {interface : Interface} {version : UInt32} {c' : Connection δ}
      (created : c.createObject factory interface version = .ok (o, c')) :
    Dealing c held none none c' (o.key :: held)
  | adopt {id : ObjectId} {interface : Interface} {o : ObjectRef} {c' : Connection δ}
      (adopted : c.adoptObject id interface = .ok (o, c')) :
    Dealing c held none none c' (o.key :: held)
  | release {o : ObjectRef} {held' : List ObjectKey} (owner : held.Perm (o.key :: held')) :
    Dealing c held (some o.key) none (c.step (.release o)).after held'
  /-- A last request. -/
  | finish {o : ObjectRef} {opcode : UInt16} {args : List Argument} {outcomes : List SendOutcome}
      {held' : List ObjectKey} (owner : held.Perm (o.key :: held'))
      (accepted : (c.step (.request o opcode args true outcomes)).accepted? =
        some ⟨o, opcode, args, true⟩) :
    Dealing c held (some o.key) (some ⟨o, opcode, args, true⟩)
      (c.step (.request o opcode args true outcomes)).after held'
  /-- The connection is closed, and there is nothing to release any more. -/
  | abandon {o : ObjectRef} {held' : List ObjectKey} (closed : c.closed = true)
      (owner : held.Perm (o.key :: held')) : Dealing c held (some o.key) none c held'

/-- Owners and table agree as long as the connection is open; and no owner, past or present, was
    ever an owner of another one's object.  A last request is the last one of its object. -/
structure Custody (c : Connection δ) (held gone : List ObjectKey) (log : List Request) : Prop where
  nodup : (held ++ gone).Nodup
  possessed : c.closed = false → Possessed c.objects held gone
  ended : ∀ r ∈ log, r.final = true → r.object.key ∈ gone
  last : log.Pairwise fun r later => r.final = true → later.object.key ≠ r.object.key

section

variable {c c' : Connection δ} {held held' gone : List ObjectKey} {log : List Request}
  {released : Option ObjectKey} {request : Option Request}

/-- What a dealing does is done by actions of the connection, and they release nothing else. -/
theorem Dealing.follows (dealing : Dealing c held released request c' held') :
    ∃ actions, c' = c.run actions ∧ accepted (c.trace actions) = request.toList ∧
      ((c.trace actions).filterMap Step.released?).Sublist released.toList := by
  cases dealing with
  | idle | abandon => exact ⟨[], rfl, rfl, List.nil_sublist _⟩
  | @work action _ apart made =>
    refine ⟨[action], rfl, ?_, ?_⟩
    · cases request <;> simp [Connection.trace, accepted, made]
    · simp [Connection.trace, Step.released?_none (s := c.step action) apart]
  | @create factory _ interface version _ created =>
    refine ⟨[.create factory interface version], ?_, rfl, List.nil_sublist _⟩
    simp [Connection.run, Connection.step, Connection.perform, created, Except.map,
      Connection.settle]
  | @adopt id interface _ _ adopted =>
    refine ⟨[.adopt id interface], ?_, rfl, List.nil_sublist _⟩
    simp [Connection.run, Connection.step, Connection.perform, adopted, Except.map,
      Connection.settle]
  | @release o => exact ⟨[.release o], rfl, rfl, List.Sublist.refl _⟩
  | @finish o opcode args outcomes _ _ made =>
    refine ⟨[.request o opcode args true outcomes], rfl, ?_, ?_⟩
    · simp [Connection.trace, accepted, made]
    · have gave : (c.step (.request o opcode args true outcomes)).released? = some o.key :=
        congrArg (fun made => (made.filter (·.final)).map (·.object.key)) made
      simp [Connection.trace, gave]

/-- A connection that is closed stays so. -/
theorem Dealing.closed (dealing : Dealing c held released request c' held')
    (closed : c.closed = true) : c'.closed = true := by
  cases dealing with
  | idle | abandon => exact closed
  | work | release | finish => exact ((c.step_effect _).of_closed closed).1
  | create created =>
    obtain ⟨_, _, _, _, _, rfl⟩ := Connection.createObject_ok created
    exact closed
  | adopt adopted =>
    obtain ⟨_, _, _, _, _, rfl⟩ := Connection.adoptObject_ok adopted
    exact closed

namespace Custody

theorem initial (protocol : Protocol) :
    Custody (Connection.initial protocol : Connection δ) [] [] [] where
  nodup := .nil
  possessed := fun _ => .initial
  ended := by simp
  last := .nil

/-- Keys that change sides. -/
theorem nodup_give_up {key : ObjectKey} (nodup : (held ++ gone).Nodup)
    (owner : held.Perm (key :: held')) : (held' ++ (gone ++ [key])).Nodup := by
  have moved : (held ++ gone).Perm (held' ++ (gone ++ [key])) := by
    rw [← List.append_assoc]
    exact (owner.append_right gone).trans (List.perm_append_singleton key _).symm
  exact moved.nodup_iff.1 nodup

theorem nodup_gain {key : ObjectKey} (nodup : (held ++ gone).Nodup) (unheld : key ∉ held)
    (fresh : key ∉ gone) : (key :: held ++ gone).Nodup := by
  rw [List.cons_append, List.nodup_cons, List.mem_append]
  exact ⟨not_or.2 ⟨unheld, fresh⟩, nodup⟩

/-- An object that is in use was not given up, so no last request was made on it. -/
theorem last_snoc {r : Request} (custody : Custody c held gone log)
    (current : r.object.key ∉ gone) :
    (log ++ [r]).Pairwise fun r later => r.final = true → later.object.key ≠ r.object.key := by
  refine List.pairwise_append.2 ⟨custody.last, List.pairwise_singleton _ _, ?_⟩
  intro earlier mem later isLater final same
  obtain rfl := List.mem_singleton.1 isLater
  exact current (same ▸ custody.ended earlier mem final)

theorem work {action : Action δ} (custody : Custody c held gone log)
    (apart : action.concernsOwner = false) :
    Custody (c.step action).after held gone (log ++ (c.step action).accepted?.toList) where
  nodup := custody.nodup
  possessed := by
    intro isOpen
    have effect := c.step_effect action
    exact effect.possessed apart isOpen (custody.possessed (effect.open_before isOpen))
  ended := by
    cases made : (c.step action).accepted? with
    | none => simpa using custody.ended
    | some r =>
      intro r' mem final
      obtain earlier | rfl : r' ∈ log ∨ r' = r := by simpa using mem
      · exact custody.ended r' earlier final
      · rw [Step.not_final apart made] at final
        cases final
  last := by
    cases made : (c.step action).accepted? with
    | none => simpa using custody.last
    | some r =>
      obtain ⟨usable, entry, found⟩ := Connection.accepted_current made
      exact custody.last_snoc
        ((custody.possessed (Connection.open_of_check usable)).not_gone found)

theorem gain {key : ObjectKey} (custody : Custody c held gone log) (usable : c.check = .ok ())
    (step : Possessed c.objects held gone →
      Possessed c'.objects (key :: held) gone ∧ key ∉ held ∧ key ∉ gone) :
    Custody c' (key :: held) gone log := by
  obtain ⟨possessed, unheld, fresh⟩ := step (custody.possessed (Connection.open_of_check usable))
  exact ⟨nodup_gain custody.nodup unheld fresh, fun _ => possessed, custody.ended, custody.last⟩

/-- An owner gives up its object, without or with a last request on it. -/
theorem give_up {key : ObjectKey} (custody : Custody c held gone log)
    (request : Option Request) (owner : held.Perm (key :: held'))
    (possessed : c'.closed = false → Possessed c'.objects held' (gone ++ [key]))
    (final : ∀ r ∈ request, r.object.key = key) (current : request.isSome = true → key ∉ gone) :
    Custody c' held' (gone ++ [key]) (log ++ request.toList) where
  nodup := nodup_give_up custody.nodup owner
  possessed := possessed
  ended := by
    intro r mem ends
    obtain earlier | asked : r ∈ log ∨ r ∈ request := by simpa using mem
    · exact List.mem_append_left _ (custody.ended r earlier ends)
    · simp [final r asked]
  last := by
    cases request with
    | none => simpa using custody.last
    | some r =>
      refine custody.last_snoc ?_
      rw [final r rfl]
      exact current rfl

theorem deal (custody : Custody c held gone log)
    (dealing : Dealing c held released request c' held') :
    Custody c' held' (gone ++ released.toList) (log ++ request.toList) := by
  have distinct : held.Nodup := (List.nodup_append.1 custody.nodup).1
  cases dealing with
  | idle same =>
    simp only [Option.toList_none, List.append_nil]
    refine ⟨((same.append_right gone).nodup_iff).1 custody.nodup, ?_, custody.ended,
      custody.last⟩
    exact fun isOpen => (custody.possessed isOpen).congr fun _ => same.mem_iff.symm
  | work apart made =>
    subst made
    simp only [Option.toList_none, List.append_nil]
    exact custody.work apart
  | create created =>
    obtain ⟨_, objects, usable, _, inserted, rfl⟩ := Connection.createObject_ok created
    simp only [Option.toList_none, List.append_nil]
    exact custody.gain usable fun possessed => possessed.insertClient inserted
  | adopt adopted =>
    obtain ⟨_, usable, found, free, rfl, rfl⟩ := Connection.adoptObject_ok adopted
    simp only [Option.toList_none, List.append_nil]
    exact custody.gain usable fun possessed => possessed.adopt found free
  | @release o _ owner =>
    refine custody.give_up none owner ?_ (by simp) (by simp)
    intro isOpen
    exact (custody.possessed isOpen).release distinct owner
  | @finish o opcode args outcomes _ owner made =>
    obtain ⟨usable, entry, found⟩ := Connection.accepted_current made
    have possessed := custody.possessed (Connection.open_of_check usable)
    -- The request announces numbers first; that changes nothing about owners.
    refine custody.give_up (some _) owner ?_ (by simp) fun _ => possessed.not_gone found
    intro _
    obtain ⟨cause, value⟩ | ⟨_, _, _, _, _, _, _, rfl, rfl, value⟩ :=
      Connection.sendRequest_value c o opcode args true outcomes
    · simp [Step.accepted?, Connection.step, Connection.perform, value, refusal] at made
    · simp only [Connection.step, Connection.perform, Logged.value_bind, Logged.value_pure, value]
      exact (possessed.announcements _).release distinct owner
  | abandon closed owner =>
    refine custody.give_up none owner ?_ (by simp) (by simp)
    intro isOpen
    rw [closed] at isOpen
    cases isOpen

end Custody

end

end Wayland.Client
