import Wayland.Proofs.Client.EventOrder
import Wayland.Proofs.Client.Lineage
import Wayland.Proofs.Wire.Acceptance

/-! # Who hears the events of an object

`listenersOf` collects what the steps of a run have attached to an object, which is a number
together with a generation.  `Listening` relates this to the table: of a live object the table
holds just what was attached first, and nothing was attached to objects that are still to come.

That a listener has a handler for each event needs more.  Listeners are checked against the
interface that the caller names, and events are checked against the interface of the object.
`Connection.Fitted` says that what is attached to an object has as many handlers as the object has
events, as long as interfaces of one name have the same events (`Uniform`).  It is kept by actions
that attach things to objects whose holders have the right name for them (`ObjectTable.Named`), and
whoever was given a reference by the connection has that (`Held`).
-/

namespace Wayland.Client

variable {δ : Type}

/-! ## What has been attached -/

/-- The object that a step attaches something to, and what. -/
def Step.attached? (s : Step δ) : Option (ObjectRef × δ) :=
  match s.action with
  | .attach o interface handlers data =>
    match (s.before.attach o interface handlers data).value with
    | .ok (true, _) => some (o, data)
    | _ => none
  | _ => none

/-- Everything that steps have attached to an object, in this order. -/
def listenersOf (id : ObjectId) (generation : Generation) (steps : List (Step δ)) : List δ :=
  (steps.filterMap Step.attached?).filterMap fun (o, data) =>
    if o.id = id ∧ o.generation = generation then some data else none

variable {s : Step δ} {past : List (Step δ)}

theorem listenersOf_snoc (id : ObjectId) (generation : Generation) (past : List (Step δ))
    (s : Step δ) :
    listenersOf id generation (past ++ [s]) =
      listenersOf id generation past ++ listenersOf id generation [s] := by
  simp [listenersOf]

theorem listenersOf_none {id : ObjectId} {generation : Generation} (idle : s.attached? = none) :
    listenersOf id generation [s] = [] := by
  simp [listenersOf, idle]

theorem listenersOf_some {id : ObjectId} {generation : Generation} {o : ObjectRef} {data : δ}
    (attached : s.attached? = some (o, data)) :
    listenersOf id generation [s] =
      if o.id = id ∧ o.generation = generation then [data] else [] := by
  by_cases same : o.id = id ∧ o.generation = generation <;> simp [listenersOf, attached, same]

/-! ## Attached once -/

/-- What is attached to live objects is what steps of the past have attached to them, and that is
    one thing at most. -/
structure Listening (past : List (Step δ)) (t : ObjectTable δ) : Prop where
  below : t.Below
  fresh : ∀ id generation, t.nextGeneration ≤ generation → listenersOf id generation past = []
  current : ∀ id entry, t.live? id = some entry →
    listenersOf id entry.generation past = entry.data.toList

variable {t t' : ObjectTable δ}

theorem Listening.idle {enters : ObjectId → Generation → Interface → Prop}
    (listening : Listening past t)
    (carries : t.Carries enters (fun _ _ _ => False) t') (idle : s.attached? = none) :
    Listening (past ++ [s]) t' where
  below := carries.below listening.below
  fresh := by
    intro id generation new
    rw [listenersOf_snoc, listenersOf_none idle, List.append_nil]
    exact listening.fresh id generation (Nat.le_trans carries.next new)
  current := by
    intro id entry' live
    rw [listenersOf_snoc, listenersOf_none idle, List.append_nil]
    obtain ⟨entry, before, generation, _, data⟩ | ⟨new, free⟩ := carries.idle_cases live
    · rw [generation, data]
      exact listening.current id entry before
    · rw [free]
      exact listening.fresh id entry'.generation new

theorem Listening.attach {o : ObjectRef} {data : δ} {entry : Entry δ} (listening : Listening past t)
    (found : t.current? o.id o.generation = some entry) (free : entry.data = none)
    (attached : s.attached? = some (o, data)) :
    Listening (past ++ [s]) (t.put o.id { entry with data := some data }) := by
  obtain ⟨present, live, generation⟩ := ObjectTable.current?_some.1 found
  have old := listening.below o.id entry present
  refine ⟨?_, ?_, ?_⟩
  · intro x entry' lookup
    rw [ObjectTable.get?_put] at lookup
    split at lookup
    · cases lookup
      exact old
    · exact listening.below x entry' lookup
  · intro id g new
    have other : ¬ (o.id = id ∧ o.generation = g) := by
      rintro ⟨_, rfl⟩
      rw [generation] at old
      exact absurd old (Nat.not_lt.2 new)
    rw [listenersOf_snoc, listenersOf_some attached, if_neg other, List.append_nil]
    exact listening.fresh id g new
  · intro id entry' live'
    obtain ⟨lookup, alive⟩ := ObjectTable.live?_some.1 live'
    rw [listenersOf_snoc, listenersOf_some attached]
    rw [ObjectTable.get?_put] at lookup
    split at lookup
    next same =>
      cases lookup
      subst same
      have before := listening.current o.id entry (ObjectTable.live?_some.2 ⟨present, live⟩)
      rw [free, generation] at before
      simp [before, generation]
    next other =>
      rw [if_neg (fun same => other same.1.symm), List.append_nil]
      exact listening.current id entry' (ObjectTable.live?_some.2 ⟨lookup, alive⟩)

/-- A step attaches nothing, or something to an object that had nothing. -/
theorem Connection.step_attached_cases (c : Connection δ) (action : Action δ) :
    (c.step action).attached? = none ∧
      c.objects.Carries (c.step action).Enters (fun _ _ _ => False)
        (c.step action).after.objects ∨
    ∃ o interface data entry,
      action = .attach o interface o.interface.events.length data ∧
      (c.step action).attached? = some (o, data) ∧ c.current? o = some entry ∧
      entry.data = none ∧
      (c.step action).after.objects = c.objects.put o.id { entry with data := some data } := by
  by_cases attaches : ∃ o interface handlers data, action = .attach o interface handlers data
  · obtain ⟨o, interface, handlers, data, rfl⟩ := attaches
    cases attached : (c.attach o interface handlers data).value with
    | error cause =>
      refine .inl ⟨by simp [Step.attached?, step, attached], ?_⟩
      simp only [step, perform, Logged.value_bind, Logged.value_pure, attached]
      exact .refl
    | ok result =>
      obtain ⟨first, c'⟩ := result
      obtain ⟨entry, _, found, ⟨_, rfl, rfl⟩ | ⟨free, rfl, rfl⟩⟩ := attach_ok attached
      · refine .inl ⟨by simp [Step.attached?, step, attached], ?_⟩
        simp only [step, perform, Logged.value_bind, Logged.value_pure, attached]
        exact .refl
      · obtain ⟨_, rfl⟩ := attach_matches attached
        refine .inr ⟨o, interface, data, entry, rfl, by simp [Step.attached?, step, attached],
          found, free, ?_⟩
        simp only [step, perform, Logged.value_bind, Logged.value_pure, attached]
        rfl
  · left
    refine ⟨?_, (c.step_effect action).carries.mono (fun _ _ _ => id) ?_⟩
    · cases action with
      | attach o interface handlers data =>
        exact absurd ⟨o, interface, handlers, data, rfl⟩ attaches
      | _ => rfl
    · rintro x g data ⟨o, interface, handlers, isAttach, _⟩
      exact attaches ⟨o, interface, handlers, data, isAttach⟩

theorem listening_step (past : List (Step δ)) (c : Connection δ) (action : Action δ)
    (listening : Listening past c.objects) :
    Listening (past ++ [c.step action]) (c.step action).after.objects := by
  obtain ⟨idle, carries⟩ | ⟨o, _, data, entry, _, attached, found, free, after⟩ :=
    c.step_attached_cases action
  · exact listening.idle carries idle
  · rw [after]
    exact listening.attach found free attached

theorem listening_run (protocol : Protocol) (actions : List (Action δ)) :
    Listening ((Connection.initial protocol).trace actions)
      ((Connection.initial protocol).run actions).objects := by
  refine Connection.history_invariant (I := fun past c => Listening past c.objects)
    listening_step actions ⟨Connection.initial_below protocol, fun _ _ _ => rfl, ?_⟩
  intro id entry live
  obtain ⟨found, _⟩ := ObjectTable.live?_some.1 live
  rw [Connection.initial, ObjectTable.get?_initial] at found
  split at found
  · cases found
    rfl
  · cases found

/-! ## Holders and tables -/

/-- The table that an action names. -/
def Action.interface? : Action δ → Option Interface
  | .create _ interface _ => some interface
  | .adopt _ interface => some interface
  | _ => none

def Action.target? : Action δ → Option ObjectRef
  | .attach o _ _ _ => some o
  | _ => none

/-- How many handlers an action offers, and with what. -/
def Action.offer? : Action δ → Option (Nat × δ)
  | .attach _ _ handlers data => some (handlers, data)
  | _ => none

/-- Tables of one name have the same events. -/
def Uniform (tables : List Interface) : Prop :=
  ∀ i ∈ tables, ∀ j ∈ tables, i.name = j.name → i.events = j.events

instance (tables : List Interface) : Decidable (Uniform tables) :=
  inferInstanceAs (Decidable (∀ i ∈ tables, ∀ j ∈ tables, _))

/-- All tables that objects and their holders can have. -/
def tablesOf (protocol : Protocol) (steps : List (Step δ)) : List Interface :=
  Protocol.Core.display :: protocol.interfaces ++ steps.filterMap (·.action.interface?)

/-- Somebody can know the object: an operation has given it to its caller, or there is or was an
    object with its number that looks like this. -/
def Held (past : List (Step δ)) (c : Connection δ) (o : ObjectRef) : Prop :=
  c.ref? o.id = some o ∨ ∃ s ∈ past, s.report.object = some o ∨ s.before.ref? o.id = some o

instance (past : List (Step δ)) (c : Connection δ) (o : ObjectRef) : Decidable (Held past c o) :=
  inferInstanceAs (Decidable (_ ∨ _))

/-- Each of the steps attaches things only to objects that somebody can know. -/
def TargetsHeld : List (Step δ) → List (Step δ) → Prop
  | _, [] => True
  | past, s :: steps =>
    (∀ o ∈ s.action.target?, Held past s.before o) ∧ TargetsHeld (past ++ [s]) steps

instance TargetsHeld.decidable :
    (past steps : List (Step δ)) → Decidable (TargetsHeld past steps)
  | _, [] => inferInstanceAs (Decidable True)
  | past, s :: steps =>
    have := TargetsHeld.decidable (past ++ [s]) steps
    inferInstanceAs (Decidable (_ ∧ _))

theorem targetsHeld_snoc {steps : List (Step δ)} :
    TargetsHeld past (steps ++ [s]) ↔
      TargetsHeld past steps ∧ ∀ o ∈ s.action.target?, Held (past ++ steps) s.before o := by
  induction steps generalizing past with
  | nil => simp [TargetsHeld]
  | cons first steps ih => simp [TargetsHeld, ih, and_assoc]

/-- What a holder takes the interface of an object to be has the right name, as long as the object
    is there. -/
structure ObjectTable.Named (tables : List Interface) (t : ObjectTable δ) (o : ObjectRef) :
    Prop where
  below : o.generation < t.nextGeneration
  known : o.interface ∈ tables
  name : ∀ entry, t.get? o.id = some entry → entry.generation = o.generation →
    entry.interface.name = o.interface.name

theorem ObjectTable.Named.carry {tables : List Interface} {o : ObjectRef}
    {enters : ObjectId → Generation → Interface → Prop}
    {attaches : ObjectId → Generation → δ → Prop}
    (named : t.Named tables o) (carries : t.Carries enters attaches t') : t'.Named tables o where
  below := Nat.lt_of_lt_of_le named.below carries.next
  known := named.known
  name := by
    intro entry' found same
    obtain ⟨entry, found, continues⟩ | ⟨new, _⟩ := carries.origin o.id entry' found
    · rw [continues.interface]
      exact named.name entry found (continues.generation ▸ same)
    · rw [same] at new
      exact absurd named.below (Nat.not_lt.2 new)

theorem Connection.named_of_ref? {tables : List Interface} {c : Connection δ} {o : ObjectRef}
    (below : c.objects.Below)
    (known : ∀ x entry, c.objects.get? x = some entry → entry.interface ∈ tables)
    (shown : c.ref? o.id = some o) : c.objects.Named tables o := by
  obtain ⟨id, generation, interface, version⟩ := o
  obtain ⟨entry, live, same⟩ := Option.map_eq_some_iff.1 shown
  obtain ⟨found, _⟩ := ObjectTable.live?_some.1 live
  cases same
  refine ⟨below id entry found, known id entry found, ?_⟩
  intro other found' _
  rw [found] at found'
  cases found'
  rfl

theorem Step.Effect.object_cases (effect : s.Effect) {o : ObjectRef}
    (given : s.report.object = some o) :
    (∃ factory interface version, s.action = .create factory interface version) ∨
      ∃ id interface, s.action = .adopt id interface := by
  cases effect with
  | create => exact .inl ⟨_, _, _, rfl⟩
  | adopt => exact .inr ⟨_, _, rfl⟩
  | _ => cases given

theorem Connection.named_of_report {tables : List Interface} {c : Connection δ} {o : ObjectRef}
    {action : Action δ} (below : c.objects.Below)
    (known : ∀ interface, action.interface? = some interface → interface ∈ tables)
    (given : (c.step action).report.object = some o) :
    (c.step action).after.objects.Named tables o := by
  obtain ⟨factory, interface, version, isCreate⟩ | ⟨id, interface, isAdopt⟩ :=
    (c.step_effect action).object_cases given
  · obtain rfl : action = .create factory interface version := isCreate
    cases created : c.createObject factory interface version with
    | error cause => simp [step, perform, created, settle, Except.map] at given
    | ok result =>
      obtain ⟨o', c'⟩ := result
      obtain rfl : o' = o := by simpa [step, perform, created, settle, Except.map] using given
      have after : (c.step (.create factory interface version)).after = c' := by
        simp [step, perform, created, settle, Except.map]
      have same := createObject_interface created
      obtain ⟨_, objects, _, _, inserted, rfl⟩ := createObject_ok created
      obtain ⟨_, _, generation, rfl⟩ := ObjectTable.insertClient_ok inserted
      rw [after]
      refine ⟨?_, same ▸ known interface rfl, ?_⟩
      · rw [generation]
        exact Nat.lt_succ_self _
      · intro entry found _
        rw [ObjectTable.get?_of_insert rfl, if_pos rfl] at found
        cases found
        rw [same]
  · obtain rfl : action = .adopt id interface := isAdopt
    cases adopted : c.adoptObject id interface with
    | error cause => simp [step, perform, adopted, settle, Except.map] at given
    | ok result =>
      obtain ⟨o', c'⟩ := result
      obtain rfl : o' = o := by simpa [step, perform, adopted, settle, Except.map] using given
      have after : (c.step (.adopt id interface)).after = c' := by
        simp [step, perform, adopted, settle, Except.map]
      obtain ⟨entry, _, live, _, rfl, rfl⟩ := adoptObject_ok adopted
      have same := adoptObject_same adopted live
      obtain ⟨present, _⟩ := ObjectTable.live?_some.1 live
      rw [after]
      refine ⟨below id entry present, known interface rfl, ?_⟩
      intro other found _
      rw [ObjectTable.get?_put, if_pos rfl] at found
      cases found
      simpa [Interface.same] using same

/-! ## A handler for each event -/

/-- The tables of objects are known, and what is attached to an object has a handler for each of its
    events, provided that tables of one name have the same events. -/
structure Connection.Fitted (tables : List Interface) (handlers : δ → Nat) (c : Connection δ) :
    Prop where
  speaks : c.protocol.interfaces ⊆ tables
  below : c.objects.Below
  known : ∀ x entry, c.objects.get? x = some entry → entry.interface ∈ tables
  fits : Uniform tables → ∀ x entry data, c.objects.live? x = some entry →
    entry.data = some data → handlers data = entry.interface.events.length

section

variable {protocol : Protocol} {tables : List Interface} {handlers : δ → Nat} {c : Connection δ}
  {action : Action δ}

theorem Connection.initial_fitted (core : Protocol.Core.display ∈ tables)
    (speaks : protocol.interfaces ⊆ tables) :
    (Connection.initial protocol).Fitted tables handlers := by
  have only : ∀ x entry, (Connection.initial protocol : Connection δ).objects.get? x = some entry →
      entry.interface = Protocol.Core.display ∧ entry.data = none := by
    intro x entry found
    rw [Connection.initial, ObjectTable.get?_initial] at found
    split at found
    · cases found
      exact ⟨rfl, rfl⟩
    · cases found
  refine ⟨speaks, Connection.initial_below protocol, ?_, ?_⟩
  · intro x entry found
    rw [(only x entry found).1]
    exact core
  · intro _ x entry data live attached
    rw [(only x entry (ObjectTable.live?_some.1 live).1).2] at attached
    cases attached

theorem Connection.Fitted.fits_step (fitted : c.Fitted tables handlers) (uniform : Uniform tables)
    (named : ∀ o ∈ action.target?, c.objects.Named tables o)
    (offers : ∀ offer ∈ action.offer?, handlers offer.2 = offer.1)
    (x : ObjectId) (entry' : Entry δ) (data : δ)
    (live : (c.step action).after.objects.live? x = some entry')
    (attached : entry'.data = some data) : handlers data = entry'.interface.events.length := by
  obtain ⟨_, carries⟩ | ⟨o, interface, offered, entry, rfl, _, target, free, after⟩ :=
    c.step_attached_cases action
  · obtain ⟨entry, before, _, interface, same⟩ | ⟨_, free⟩ := carries.idle_cases live
    · rw [interface]
      exact fitted.fits uniform x entry data before (same ▸ attached)
    · rw [free] at attached
      cases attached
  · obtain ⟨found, alive⟩ := ObjectTable.live?_some.1 live
    rw [after, ObjectTable.get?_put] at found
    split at found
    · cases found
      cases attached
      obtain ⟨present, _, generation⟩ := ObjectTable.current?_some.1 target
      -- The listener was checked against the table of the holder, which need not be the object's.
      have named := named o rfl
      have events := uniform entry.interface (fitted.known o.id entry present) o.interface
        named.known (named.name entry present generation)
      exact (offers (_, data) rfl).trans (congrArg List.length events.symm)
    · exact fitted.fits uniform x entry' data (ObjectTable.live?_some.2 ⟨found, alive⟩) attached

theorem Connection.Fitted.step (fitted : c.Fitted tables handlers)
    (tabled : ∀ i ∈ action.interface?, i ∈ tables)
    (named : ∀ o ∈ action.target?, c.objects.Named tables o)
    (offers : ∀ offer ∈ action.offer?, handlers offer.2 = offer.1) :
    (c.step action).after.Fitted tables handlers := by
  have effect := c.step_effect action
  refine ⟨?_, effect.carries.below fitted.below, ?_, fun uniform => ?_⟩
  · rw [effect.protocol]
    exact fitted.speaks
  · intro x entry' found
    obtain ⟨entry, found, continues⟩ | ⟨_, _, entered, _⟩ := effect.carries.origin x entry' found
    · rw [continues.interface]
      exact fitted.known x entry found
    · obtain ⟨_, told⟩ | ⟨factory, version, _, isCreate, _⟩ := entered
      · exact fitted.speaks told
      · refine tabled _ ?_
        obtain rfl : action = _ := isCreate
        rfl
  · exact fitted.fits_step uniform named offers

/-- What is attached to the sender of an event has as many handlers as the sender has events. -/
theorem Connection.Fitted.delivered {queue : QueueId} {d : Delivery δ}
    (fitted : c.Fitted tables handlers) (uniform : Uniform tables)
    (delivered : (c.step (.next queue)).delivery? = some d) :
    handlers d.data = d.interface.events.length := by
  obtain ⟨found, _⟩ := (c.popped_delivered_iff queue).2 d delivered
  obtain ⟨entry, current, attached, table, _⟩ := ObjectTable.delivery?_some.1 found
  obtain ⟨present, live, _⟩ := ObjectTable.current?_some.1 current
  rw [table]
  exact fitted.fits uniform d.event.sender entry d.data (ObjectTable.live?_some.2 ⟨present, live⟩)
    attached

/-- Whoever was given a reference has the name of the object right, and so listeners fit. -/
theorem fitted_run (actions : List (Action δ))
    (held : TargetsHeld [] ((Connection.initial protocol).trace actions))
    (offers : ∀ s ∈ (Connection.initial protocol).trace actions,
      ∀ offer ∈ s.action.offer?, handlers offer.2 = offer.1) :
    ((Connection.initial protocol).run actions).Fitted
      (tablesOf protocol ((Connection.initial protocol).trace actions)) handlers := by
  let steps := (Connection.initial protocol : Connection δ).trace actions
  let tables := tablesOf protocol steps
  have core : Protocol.Core.display ∈ tables := List.mem_cons_self
  have speaks : protocol.interfaces ⊆ tables := fun i mem => by simp [tables, tablesOf, mem]
  refine (Connection.history_invariant (I := fun past c =>
    (∀ s ∈ past, ∀ i ∈ s.action.interface?, i ∈ tables) → TargetsHeld [] past →
    (∀ s ∈ past, ∀ offer ∈ s.action.offer?, handlers offer.2 = offer.1) →
      c.Fitted tables handlers ∧ ∀ o, Held past c o → c.objects.Named tables o)
    ?_ actions ?_ ?_ held offers).1
  · intro past c action ih tabled held offers
    obtain ⟨before, now⟩ := targetsHeld_snoc.1 held
    obtain ⟨fitted, named⟩ := ih (fun s mem => tabled s (List.mem_append_left _ mem)) before
      fun s mem => offers s (List.mem_append_left _ mem)
    have tabled := tabled (c.step action) (by simp)
    have after := fitted.step tabled (fun o mem => named o (now o mem))
      (offers (c.step action) (by simp))
    refine ⟨after, ?_⟩
    rintro o (shown | ⟨s, mem, given⟩)
    · exact Connection.named_of_ref? after.below after.known shown
    · obtain old | rfl : s ∈ past ∨ s = c.step action := by simpa using mem
      · exact (named o (.inr ⟨s, old, given⟩)).carry (c.step_effect action).carries
      · obtain given | shown := given
        · exact Connection.named_of_report fitted.below tabled given
        · exact (named o (.inl shown)).carry (c.step_effect action).carries
  · intro _ _ _
    have fitted : (Connection.initial protocol).Fitted tables handlers :=
      Connection.initial_fitted core speaks
    refine ⟨fitted, ?_⟩
    rintro o (shown | ⟨_, mem, _⟩)
    · exact Connection.named_of_ref? fitted.below fitted.known shown
    · cases mem
  · intro s mem i named
    have tabled : i ∈ steps.filterMap (·.action.interface?) := List.mem_filterMap.2 ⟨s, mem, named⟩
    exact List.mem_append_right _ tabled

end

/-! ## Events that are handed out -/

theorem Handling.added?_checked {h : Handling δ} {queue : QueueId} {event : QueuedEvent}
    (added : h.added? = some (queue, event)) :
    ∃ sender spec, h.before.objects.live? event.sender = some sender ∧
      sender.generation = event.generation ∧ sender.interface.event? event.opcode = some spec ∧
      Message.check spec event.args = .ok () := by
  obtain ⟨_, _, whole, _, isBody, _⟩ := Front.of_message.1 h.front
  have aligned : h.body.length % 4 = 0 := by
    rw [isBody, List.length_drop, List.length_take]
    omega
  unfold added? at added
  split at added
  · cases added
  · simp only [Option.bind_eq_bind, Option.bind_eq_some_iff, Option.pure_def, Option.some.injEq,
      Prod.mk.injEq] at added
    obtain ⟨sender, live, spec, known, args, read, rfl, rfl⟩ := added
    refine ⟨sender, spec, live, rfl, known, ?_⟩
    generalize demarshalled : Message.demarshal spec h.body h.before.inbox.fds = outcome at read
    obtain ⟨_ | args, rest⟩ := outcome <;> cases read
    exact ((Message.demarshal_ok aligned).1 demarshalled).1

namespace Connection

variable {protocol : Protocol} {actions : List (Action δ)} {queue : QueueId} {d : Delivery δ}

/-- An event that is handed out is one of the interface of its sender, and its arguments fit. -/
theorem delivered_checked
    (delivered : (((initial protocol).run actions).step (.next queue)).delivery? = some d) :
    ∃ spec, d.interface.event? d.event.opcode = some spec ∧
      Message.check spec d.event.args = .ok () := by
  obtain ⟨found, _⟩ := (((initial protocol).run actions).popped_delivered_iff queue).2 d delivered
  obtain ⟨entry, current, _, table, _⟩ := ObjectTable.delivery?_some.1 found
  obtain ⟨present, _, generation⟩ := ObjectTable.current?_some.1 current
  -- The event went into the queue when some message was handled.
  obtain ⟨events, exist, mem⟩ := delivered_waiting delivered
  obtain ⟨s, isStep, h, handled, added⟩ :=
    mem_pushedTo.1 ((ledger_run protocol actions).pushed exist d.event mem)
  obtain ⟨sender, spec, live, same, known, checked⟩ := Handling.added?_checked added
  obtain ⟨started, _⟩ := ObjectTable.live?_some.1 live
  -- As long as the sender is there, it has the interface that it had then.
  obtain ⟨before, after⟩ := (initial protocol).handled_precedes actions s isStep h handled
  have lasts := (h.precedes.trans after).same (before.below (initial_below protocol)) started
    present (generation.trans same.symm)
  refine ⟨spec, ?_, checked⟩
  rw [table, lasts.interface]
  exact known

theorem delivered_opcode_lt
    (delivered : (((initial protocol).run actions).step (.next queue)).delivery? = some d) :
    d.event.opcode.toNat < d.interface.events.length := by
  obtain ⟨_, known, _⟩ := delivered_checked delivered
  exact (List.getElem?_eq_some_iff.1 known).1

/-- What it takes for the right listener to hear an event that is handed out after a run.  The event
    was read when the object with the sender's number and the event's generation was alive.  That
    object is still alive, and what hears the event is the first thing that was ever attached to it,
    and the only one. -/
structure Heard (protocol : Protocol) (actions : List (Action δ)) (queue : QueueId)
    (d : Delivery δ) : Prop where
  read : ∃ s ∈ (initial protocol).trace actions, ∃ h ∈ s.handled,
    h.added? = some (queue, d.event)
  alive : ∀ s ∈ (initial protocol).trace actions, ∀ h ∈ s.handled, ∀ pushed,
    h.added? = some (pushed, d.event) → ∃ sender,
      h.before.objects.live? d.event.sender = some sender ∧ sender.generation = d.event.generation
  current : ∃ entry, ((initial protocol).run actions).objects.current? d.event.sender
    d.event.generation = some entry ∧ entry.data = some d.data
  first : listenersOf d.event.sender d.event.generation ((initial protocol).trace actions) =
    [d.data]

theorem delivered_heard
    (delivered : (((initial protocol).run actions).step (.next queue)).delivery? = some d) :
    Heard protocol actions queue d := by
  let c := (initial protocol).run actions
  obtain ⟨found, _⟩ := (c.popped_delivered_iff queue).2 d delivered
  obtain ⟨entry, current, attached, _, _⟩ := ObjectTable.delivery?_some.1 found
  obtain ⟨present, live, generation⟩ := ObjectTable.current?_some.1 current
  obtain ⟨events, exist, mem⟩ := delivered_waiting delivered
  refine ⟨mem_pushedTo.1 ((ledger_run protocol actions).pushed exist d.event mem), ?_,
    ⟨entry, current, attached⟩, ?_⟩
  · intro _ _ h _ _ added
    obtain ⟨sender, _, live, same, _⟩ := Handling.added?_some added
    exact ⟨sender, live, same⟩
  · have heard := (listening_run protocol actions).current d.event.sender entry
      (ObjectTable.live?_some.2 ⟨present, live⟩)
    rw [generation, attached] at heard
    exact heard

end Connection

end Wayland.Client
