import Wayland.Proofs.Client.Run
import Wayland.Proofs.Session.Outcomes

/-! # Relations that calls respect

What an application does to a session is made of few things: sequences, changes to tables of names,
and actions of connections.  A relation between states of a session that these respect
(`CallRelation`) holds between the states before and after every call that hands out no events and
leaves the handlers of registries and callbacks alone.  The proofs follow the text of the calls.

Some actions need something to begin with: an object to attach a listener to, a table for a new
object (`Means`).  A relation says what it takes to know such things, and `Hands` follows them
through the calls: from names and arguments to the actions that use them, and from actions that make
objects to the names they are given.
-/

namespace Wayland.Session

open Client (Action Connection Logged Note ClientError ObjectRef QueueId)

/-! ## What actions need -/

/-- What calls use and pass on. -/
inductive Means
  | connection (k : ConnectionRef)
  | object (h : Handle)
  | table (interface : Interface)

def Proxy.means (p : Proxy) : List Means := (p.handle.map .object).toList

def Display.means (d : Display) : List Means :=
  (d.connection.map .connection).toList ++ d.proxy.means

/-- What the names of a table stand for. -/
def Names.means {α : Type} (n : Names α) (f : α → List Means) : List Means :=
  n.entries.flatMap fun entry => f entry.2

/-- What the names of a session stand for. -/
def State.means (s : State) : List Means :=
  s.proxies.means (·.proxy.means) ++ s.displays.means Display.means ++
    s.held.means (fun k => [.connection k]) ++ s.intents.means (fun k => [.connection k])

/-- What an action of a connection needs to begin with. -/
def needs (k : ConnectionRef) : Action ObjectData → List Means
  | .create _ interface _ | .adopt _ interface => [.table interface]
  | .attach o _ _ _ => [.object ⟨k, o⟩]
  | _ => []

namespace Names

variable {α : Type} {n : Names α} {f : α → List Means} {name : String} {a : α}

theorem means_of_find? (found : n.find? name = some a) : f a ⊆ n.means f := by
  obtain ⟨before, after, entries, _⟩ := List.lookup_eq_some_iff.1 found
  exact fun x mem => List.mem_flatMap.2 ⟨(name, a), by simp [entries], mem⟩

theorem means_of_any {condition : α → Bool} (holds : n.any condition = true) :
    ∃ a, condition a = true ∧ f a ⊆ n.means f := by
  obtain ⟨entry, mem, satisfied⟩ := List.any_eq_true.1 holds
  exact ⟨entry.2, satisfied, fun x inside => List.mem_flatMap.2 ⟨entry, mem, inside⟩⟩

theorem means_erase : (n.erase name).means f ⊆ n.means f := by
  intro x mem
  obtain ⟨entry, kept, inside⟩ := List.mem_flatMap.1 mem
  exact List.mem_flatMap.2 ⟨entry, (List.mem_filter.1 kept).1, inside⟩

theorem means_insert : (n.insert name a).means f ⊆ f a ++ n.means f := by
  intro x mem
  obtain new | old := List.mem_append.1 mem
  · exact List.mem_append_left _ new
  · exact List.mem_append_right _ (means_erase old)

end Names

section

variable {s : State}

theorem means_of_bound {name : String} {b : Bound} (found : s.proxies.find? name = some b) :
    b.proxy.means ⊆ s.means := by
  have held : b.proxy.means ⊆ s.proxies.means (·.proxy.means) :=
    Names.means_of_find? (f := (·.proxy.means)) found
  exact fun x mem => by simp [State.means, held mem]

theorem means_of_display {name : String} {d : Display} (found : s.displays.find? name = some d) :
    d.means ⊆ s.means := by
  have held : d.means ⊆ s.displays.means Display.means := Names.means_of_find? found
  exact fun x mem => by simp [State.means, held mem]

theorem means_of_held {name : String} {k : ConnectionRef} (found : s.held.find? name = some k) :
    [Means.connection k] ⊆ s.means := by
  have held : [Means.connection k] ⊆ s.held.means (fun k => [.connection k]) :=
    Names.means_of_find? (f := fun k => [.connection k]) found
  exact fun x mem => by simp [State.means, held mem]

/-- What keeps a connection alive is a name that stands for it. -/
theorem means_of_keeps {k : ConnectionRef} (kept : s.keeps k = true) :
    .connection k ∈ s.means := by
  unfold State.keeps at kept
  rw [Bool.or_eq_true, Bool.or_eq_true] at kept
  obtain (shown | held) | intended := kept
  · obtain ⟨d, same, sub⟩ := Names.means_of_any (f := Display.means) shown
    have mem : .connection k ∈ d.means := by simp [Display.means, beq_iff_eq.1 same]
    simp [State.means, sub mem]
  · obtain ⟨j, same, sub⟩ := Names.means_of_any (f := fun k => [.connection k]) held
    obtain rfl := beq_iff_eq.1 same
    simp [State.means, sub (List.mem_singleton_self _)]
  · obtain ⟨j, same, sub⟩ := Names.means_of_any (f := fun k => [.connection k]) intended
    obtain rfl := beq_iff_eq.1 same
    simp [State.means, sub (List.mem_singleton_self _)]

end

/-! ## Actions of connections -/

/-- How many events there are handlers for. -/
def ObjectData.handlers : ObjectData → Nat
  | .listener _ _ _ handlers _ => handlers
  | .registry _ => Protocol.Core.registry.events.length
  | .callback _ => Protocol.Core.callback.events.length

/-- The action hands out no event.  If it attaches something, that has as many handlers as the
    action says, and it is not the handlers of a callback. -/
def Plain (action : Action ObjectData) : Prop :=
  match action with
  | .next _ => False
  | .attach _ _ handlers data => data.handlers = handlers ∧ ∀ cell, data ≠ .callback cell
  | _ => True

/-- A connection is left as it is, or taken on by a plain action that finds what it needs. -/
def Moves (given : List Means) (k : ConnectionRef) (c c' : Connection ObjectData) : Prop :=
  c' = c ∨ ∃ action, Plain action ∧ needs k action ⊆ given ∧ c' = (c.step action).after

section

variable {given : List Means} {k : ConnectionRef} {c c' : Connection ObjectData} {o : ObjectRef}

theorem Moves.refl : Moves given k c c := .inl rfl

/-- An action that needs nothing. -/
theorem Moves.step (action : Action ObjectData) (plain : Plain action)
    (free : needs k action = []) : Moves given k c (c.step action).after :=
  .inr ⟨action, plain, free ▸ List.nil_subset given, rfl⟩

theorem createObject_step {factory : ObjectRef} {interface : Interface} {version : UInt32}
    (created : c.createObject factory interface version = .ok (o, c')) :
    (c.step (.create factory interface version)).after = c' ∧
      (c.step (.create factory interface version)).report.object = some o := by
  simp [Connection.step, Connection.perform, created, Connection.settle, Except.map]

theorem adoptObject_step {id : ObjectId} {interface : Interface}
    (adopted : c.adoptObject id interface = .ok (o, c')) :
    (c.step (.adopt id interface)).after = c' ∧
      (c.step (.adopt id interface)).report.object = some o := by
  simp [Connection.step, Connection.perform, adopted, Connection.settle, Except.map]

theorem attach_step {interface : Interface} {handlers : Nat} {data : ObjectData} {first : Bool}
    (attached : (c.attach o interface handlers data).value = .ok (first, c')) :
    c' = (c.step (.attach o interface handlers data)).after := by
  simp [Connection.step, Connection.perform, attached, Connection.settle, Except.map]

theorem setQueue_step {queue : QueueId} (moved : c.setQueue o queue = .ok c') :
    (c.step (.setQueue o queue)).after = c' := by
  simp [Connection.step, Connection.perform, moved, Connection.settle, Except.map]

theorem createQueue_moves {queue : QueueId} (created : c.createQueue.value = .ok (queue, c')) :
    Moves given k c c' := by
  have after : (c.step .createQueue).after = c' := by
    simp [Connection.step, Connection.perform, created, Connection.settle, Except.map]
  exact after ▸ .step _ trivial rfl

theorem prepareRead_moves {queue : QueueId} (declared : c.prepareRead queue = .ok c') :
    Moves given k c c' := by
  have after : (c.step (.prepareRead queue)).after = c' := by
    simp [Connection.step, Connection.perform, declared, Connection.settle, Except.map]
  exact after ▸ .step _ trivial rfl

end

section

variable {channel : Channel}

theorem Channel.sendRequest_step (o : ObjectRef) (opcode : UInt16) (args : List Argument)
    (final : Bool) :
    (channel.sendRequest o opcode args final).value.2.connection =
      (channel.connection.step (.request o opcode args final channel.link.sendOutcomes)).after := by
  simp [Channel.sendRequest, Connection.step, Connection.perform]

theorem Channel.flush_step :
    channel.flush.value.2.connection =
      (channel.connection.step (.flush channel.link.sendOutcomes)).after := by
  simp [Channel.flush, Connection.step, Connection.perform]

theorem Channel.close_step :
    channel.close.value.2.connection =
      (channel.connection.step (.close channel.link.sendOutcomes)).after := by
  simp [Channel.close, Connection.step, Connection.perform]

theorem Channel.readEvents_step :
    channel.readEvents.value.2.connection =
      (channel.connection.step (.read (channel.link.reads.map Prod.fst))).after := by
  simp only [Channel.readEvents, Connection.readEvents, Connection.step, Connection.perform]
  cases channel.connection.gate.withdraw with
  | mk withdrawal gate => cases withdrawal <;> simp

end

/-! ## Relations -/

/-- Nothing has changed that relations are about.  Names may have, but what they stand for was there
    before or is given; or notes have changed, or what a compositor is going to do. -/
structure State.Idle (given : List Means) (s t : State) : Prop where
  protocol : t.protocol = s.protocol
  channels : t.channels = s.channels
  displays : t.displays = s.displays
  callbacks : t.callbacks = s.callbacks
  registries : t.registries = s.registries
  calls : t.frame.calls = s.frame.calls
  means : t.means ⊆ given ++ s.means

/-- What the names of objects and connections stand for has not changed either. -/
theorem State.Idle.aside {s : State} {servers : Names ConnectionRef} {queues : Names EventQueue}
    {globals : List Global} {dispatching : List (String × Option String)} {serving : List Serving}
    {notes : Array Note} :
    s.Idle [] { s with servers, queues, globals, dispatching, serving
                       frame := { s.frame with notes } } :=
  ⟨rfl, rfl, rfl, rfl, rfl, rfl, List.Subset.refl _⟩

section

variable {s : State} {given : List Means}

/-- Proxies are put under other names. -/
theorem State.Idle.proxies {proxies : Names Bound}
    (known : proxies.means (·.proxy.means) ⊆ given ++ s.proxies.means (·.proxy.means)) :
    s.Idle given { s with proxies } := by
  refine ⟨rfl, rfl, rfl, rfl, rfl, rfl, fun x mem => ?_⟩
  have known := @known x
  simp only [State.means, List.mem_append] at mem known ⊢
  grind

theorem State.Idle.held {held : Names ConnectionRef}
    (known : held.means (fun k => [.connection k]) ⊆
      given ++ s.held.means (fun k => [.connection k])) : s.Idle given { s with held } := by
  refine ⟨rfl, rfl, rfl, rfl, rfl, rfl, fun x mem => ?_⟩
  have known := @known x
  simp only [State.means, List.mem_append] at mem known ⊢
  grind

theorem State.Idle.intents {intents : Names ConnectionRef}
    (known : intents.means (fun k => [.connection k]) ⊆
      given ++ s.intents.means (fun k => [.connection k])) : s.Idle given { s with intents } := by
  refine ⟨rfl, rfl, rfl, rfl, rfl, rfl, fun x mem => ?_⟩
  have known := @known x
  simp only [State.means, List.mem_append] at mem known ⊢
  grind

end

/-- A relation between good states that sequences, idle changes and actions of connections respect.
    In good states, names stand for things that are known, and so do all things that came by an
    action or a name, from then on. -/
structure CallRelation where
  Good : State → Prop
  Knows : State → Means → Prop
  Rel : State → State → Prop
  refl {s : State} : Good s → Rel s s
  trans {s t u : State} : Rel s t → Rel t u → Rel s u
  stays {s t : State} : Good s → Rel s t → Good t
  keeps {s t : State} {x : Means} : Good s → Rel s t → Knows s x → Knows t x
  named {s : State} {x : Means} : Good s → x ∈ s.means → Knows s x
  /-- The tables that a program is made with. -/
  tabled {s : State} {i : Interface} :
    i ∈ Protocol.Core.tables ++ s.protocol.interfaces → Knows s (.table i)
  /-- A connection shows its objects. -/
  shown {s : State} {k : ConnectionRef} {id : ObjectId} {o : ObjectRef} :
    Good s → Knows s (.connection k) → (s.channel k).connection.ref? id = some o →
      Knows s (.object ⟨k, o⟩)
  idle {s t : State} {given : List Means} :
    Good s → (∀ x ∈ given, Knows s x) → s.Idle given t → Rel s t
  moves {s : State} {k : ConnectionRef} {channel : Channel} {given : List Means}
    (notes : List Note) : Good s → (∀ x ∈ given, Knows s x) →
      Moves given k (s.channel k).connection channel.connection →
        Rel s (s.putChannel k channel notes)
  /-- A new object is known to whoever made it. -/
  makes {s : State} {k : ConnectionRef} {channel : Channel} {action : Action ObjectData}
    {o : ObjectRef} (notes : List Note) : Good s → Knows s (.connection k) →
      (∀ x ∈ needs k action, Knows s x) →
      channel.connection = ((s.channel k).connection.step action).after →
      ((s.channel k).connection.step action).report.object = some o →
        Knows (s.putChannel k channel notes) (.object ⟨k, o⟩)

variable {α β : Type} {C : CallRelation} {given more : List Means} {gives : α → List Means}

/-- Everything is known. -/
def CallRelation.All (C : CallRelation) (s : State) (xs : List Means) : Prop :=
  ∀ x ∈ xs, C.Knows s x

theorem CallRelation.all_nil {s : State} : C.All s [] := fun _ mem => absurd mem List.not_mem_nil

/-- The states before and after a computation are related if it starts with what is given, and then
    it gives what is promised. -/
def SessionM.Hands (C : CallRelation) (given : List Means) (m : SessionM α)
    (gives : α → List Means) : Prop :=
  ∀ s : State, C.Good s → C.All s given →
    C.Rel s (m.run s).2 ∧ C.All (m.run s).2 (gives (m.run s).1)

/-- The same of a computation that may fail; then it gives nothing. -/
def StepM.Hands (C : CallRelation) (given : List Means) (m : StepM α) (gives : α → List Means) :
    Prop :=
  ∀ s : State, C.Good s → C.All s given →
    C.Rel s (s.outcome m).2 ∧ ∀ a, (s.outcome m).1 = .ok a → C.All (s.outcome m).2 (gives a)

/-- The states before and after a computation are related. -/
abbrev SessionM.Respects (C : CallRelation) (m : SessionM α) : Prop :=
  SessionM.Hands C [] m fun _ => []

abbrev StepM.Respects (C : CallRelation) (m : StepM α) : Prop := StepM.Hands C [] m fun _ => []

namespace SessionM

variable {m : SessionM α}

theorem Hands.weaken (hands : Hands C given m gives) (more' : given ⊆ more) :
    Hands C more m gives := fun s good known => hands s good fun x mem => known x (more' mem)

/-- What is given may be used again. -/
theorem Hands.bind {mid : α → List Means} {f : α → SessionM β} {gives : β → List Means}
    (first : Hands C given m mid) (rest : ∀ a, Hands C (mid a ++ given) (f a) gives) :
    Hands C given (m >>= f) gives := by
  intro s good known
  obtain ⟨related, fresh⟩ := first s good known
  have kept : C.All (m.run s).2 (mid (m.run s).1 ++ given) := by
    intro x mem
    obtain new | old := List.mem_append.1 mem
    · exact fresh x new
    · exact C.keeps good related (known x old)
  obtain ⟨next, last⟩ := rest (m.run s).1 (m.run s).2 (C.stays good related) kept
  exact ⟨C.trans related next, last⟩

/-- What the first computation gives is all that the rest needs. -/
theorem Hands.next {mid : α → List Means} {f : α → SessionM β} {gives : β → List Means}
    (first : Hands C given m mid) (rest : ∀ a, Hands C (mid a) (f a) gives) :
    Hands C given (m >>= f) gives :=
  first.bind fun a => (rest a).weaken (List.subset_append_left _ _)

theorem hands_pure {a : α} (known : gives a ⊆ given) : Hands C given (pure a : SessionM α) gives :=
  fun _ good all => ⟨C.refl good, fun x mem => all x (known mem)⟩

theorem respects_pure (a : α) : Respects C (pure a : SessionM α) := hands_pure (List.Subset.refl _)

theorem respects_get : Respects C (get : SessionM State) := fun _ good _ =>
  ⟨C.refl good, C.all_nil⟩

theorem hands_modify {f : State → State} (idle : ∀ s, State.Idle given s (f s)) :
    Hands C given (modify f : SessionM Unit) fun _ => [] :=
  fun s good known => ⟨C.idle good known (idle s), C.all_nil⟩

theorem respects_mapM {f : α → SessionM β} (each : ∀ a, Respects C (f a)) (as : List α) :
    Respects C (as.mapM f) := by
  induction as with
  | nil => exact respects_pure []
  | cons a as ih =>
    rw [List.mapM_cons]
    exact (each a).bind fun _ => ih.bind fun _ => respects_pure _

end SessionM

namespace StepM

variable {m : StepM α}

theorem Hands.weaken (hands : Hands C given m gives) (more' : given ⊆ more) :
    Hands C more m gives := fun s good known => hands s good fun x mem => known x (more' mem)

theorem Hands.plain (hands : Hands C given m gives) : Hands C given m fun _ => [] :=
  fun s good known => ⟨(hands s good known).1, fun _ _ => C.all_nil⟩

theorem Hands.run (hands : Hands C given m gives) :
    SessionM.Hands C given (m.run : SessionM (Except StepError α)) fun _ => [] :=
  fun s good known => ⟨(hands s good known).1, C.all_nil⟩

theorem respects_run (respects : Respects C m) :
    SessionM.Respects C (m.run : SessionM (Except StepError α)) := respects.run

theorem hands_lift {m : SessionM α} (hands : SessionM.Hands C given m gives) :
    Hands C given (monadLift m : StepM α) gives := by
  intro s good known
  obtain ⟨related, fresh⟩ := hands s good known
  refine ⟨related, fun a result => ?_⟩
  obtain rfl : (m.run s).1 = a := Except.ok.inj result
  exact fresh

theorem hands_pure {a : α} (known : gives a ⊆ given) : Hands C given (pure a : StepM α) gives := by
  intro s good all
  refine ⟨C.refl good, fun b result => ?_⟩
  obtain rfl : a = b := Except.ok.inj result
  exact fun x mem => all x (known mem)

theorem respects_pure (a : α) : Respects C (pure a : StepM α) := hands_pure (List.Subset.refl _)

theorem hands_throw (cause : StepError) : Hands C given (throw cause : StepM α) gives := by
  refine fun s good _ => ⟨C.refl good, fun a result => ?_⟩
  cases result

theorem respects_throw (cause : StepError) : Respects C (throw cause : StepM α) := hands_throw cause

/-- Names stand for things that are known. -/
theorem hands_get : Hands C given (get : StepM State) State.means := by
  intro s good _
  refine ⟨C.refl good, fun t result => ?_⟩
  obtain rfl : s = t := Except.ok.inj result
  exact fun x mem => C.named good mem

theorem respects_get : Respects C (get : StepM State) := hands_get.plain

theorem hands_modify {f : State → State} (idle : ∀ s, State.Idle given s (f s)) :
    Hands C given (modify f : StepM Unit) fun _ => [] :=
  hands_lift (SessionM.hands_modify idle)

theorem Hands.bind {mid : α → List Means} {f : α → StepM β} {gives : β → List Means}
    (first : Hands C given m mid) (rest : ∀ a, Hands C (mid a ++ given) (f a) gives) :
    Hands C given (m >>= f) gives := by
  intro s good known
  obtain ⟨related, fresh⟩ := first s good known
  rw [outcome_bind]
  generalize s.outcome m = outcome at related fresh ⊢
  obtain ⟨result, t⟩ := outcome
  cases result with
  | error cause =>
    refine ⟨related, fun b result => ?_⟩
    cases result
  | ok a =>
    have kept : C.All t (mid a ++ given) := by
      intro x mem
      obtain new | old := List.mem_append.1 mem
      · exact fresh a rfl x new
      · exact C.keeps good related (known x old)
    obtain ⟨next, last⟩ := rest a t (C.stays good related) kept
    exact ⟨C.trans related next, last⟩

theorem Hands.next {mid : α → List Means} {f : α → StepM β} {gives : β → List Means}
    (first : Hands C given m mid) (rest : ∀ a, Hands C (mid a) (f a) gives) :
    Hands C given (m >>= f) gives :=
  first.bind fun a => (rest a).weaken (List.subset_append_left _ _)

theorem Hands.observing (hands : Hands C given m gives) :
    Hands C given (observing m) fun _ => [] := by
  intro s good known
  rw [outcome_observing]
  exact ⟨(hands s good known).1, fun _ _ => C.all_nil⟩

theorem respects_ofExcept (result : Except StepError α) :
    Respects C (ofExcept result : StepM α) := by
  cases result with
  | ok a => exact respects_pure a
  | error cause => exact hands_throw cause

theorem respects_ofClient (result : Except ClientError α) : Respects C (ofClient result) := by
  cases result with
  | ok a => exact respects_pure a
  | error cause => exact hands_throw _

theorem hands_named {table : State → Names α} {name : String}
    (stands : ∀ s a, (table s).find? name = some a → gives a ⊆ s.means) :
    Hands C given (named table name) gives := by
  refine hands_get.bind fun s => ?_
  split
  next a found => exact hands_pure (fun x mem => List.mem_append_left _ (stands s a found mem))
  · exact hands_throw _

theorem respects_named (table : State → Names α) (name : String) :
    Respects C (named table name) := hands_named fun _ _ _ => List.nil_subset _

theorem hands_bound (name : String) :
    Hands C given (named State.proxies name) (·.proxy.means) :=
  hands_named fun _ _ => means_of_bound

theorem hands_display (name : String) :
    Hands C given (named State.displays name) Display.means :=
  hands_named fun _ _ => means_of_display

/-- The tables of `wl_registry` and the like are known to every program. -/
theorem Hands.core {i : Interface} (hands : Hands C [.table i] m gives)
    (core : i ∈ Protocol.Core.tables) : Hands C given m gives := by
  refine fun s good _ => hands s good fun x mem => ?_
  obtain rfl := List.mem_singleton.1 mem
  exact C.tabled (List.mem_append_left _ core)

theorem hands_interfaceNamed (name : String) :
    Hands C given (interfaceNamed name) fun i => [.table i] := by
  intro s good _
  unfold interfaceNamed
  rw [outcome_bind_ok outcome_get]
  cases found : s.protocol.find? name with
  | none => exact hands_throw (.noSuchName name) s good C.all_nil
  | some i =>
    refine ⟨C.refl good, fun j result => ?_⟩
    obtain rfl : i = j := Except.ok.inj result
    intro x mem
    obtain rfl := List.mem_singleton.1 mem
    have known : i ∈ s.protocol.interfaces := List.mem_reverse.1 (List.mem_of_find?_eq_some found)
    exact C.tabled (List.mem_append_right _ known)

end StepM

/-! ### Calls on connections -/

theorem SessionM.hands_onChannel {k : ConnectionRef} {f : Channel → Logged (α × Channel)}
    (moves : ∀ channel, Moves given k channel.connection (f channel).value.2.connection) :
    SessionM.Hands C given (onChannel k f) fun _ => [] := by
  intro s good known
  rw [onChannel_run]
  exact ⟨C.moves _ good known (moves _), C.all_nil⟩

theorem SessionM.hands_onConnection {k : ConnectionRef}
    {f : Connection ObjectData → Logged (α × Connection ObjectData)}
    (moves : ∀ c, Moves given k c (f c).value.2) :
    SessionM.Hands C given (onConnection k f) fun _ => [] :=
  hands_onChannel fun channel => by simpa using moves channel.connection

theorem StepM.hands_tryChannel {k : ConnectionRef}
    {f : Channel → Logged (Except ClientError α × Channel)}
    (moves : ∀ channel, Moves given k channel.connection (f channel).value.2.connection) :
    StepM.Hands C given (tryChannel k f) fun _ => [] :=
  (hands_lift (SessionM.hands_onChannel moves)).bind fun _ =>
    (respects_ofClient _).weaken (List.nil_subset _)

theorem StepM.hands_tryConnection {k : ConnectionRef}
    {f : Connection ObjectData → Logged (Except ClientError (α × Connection ObjectData))}
    (moves : ∀ c a c', (f c).value = .ok (a, c') → Moves given k c c') :
    StepM.Hands C given (tryConnection k f) fun _ => [] := by
  refine hands_tryChannel fun channel => ?_
  simp only [Logged.value_bind]
  cases done : (f channel.connection).value with
  | ok result => exact moves _ _ _ done
  | error cause => exact .refl

/-- A connection makes an object. -/
theorem StepM.hands_makes {k : ConnectionRef} (action : Action ObjectData)
    {f : Connection ObjectData →
      Logged (Except ClientError (ObjectRef × Connection ObjectData))} (plain : Plain action)
    (steps : ∀ c o c', (f c).value = .ok (o, c') →
      (c.step action).after = c' ∧ (c.step action).report.object = some o) :
    StepM.Hands C (.connection k :: needs k action) (tryConnection k f)
      fun o => [.object ⟨k, o⟩] := by
  intro s good known
  have moves : ∀ c o c', (f c).value = .ok (o, c') →
      Moves (.connection k :: needs k action) k c c' := fun c o c' done =>
    .inr ⟨action, plain, List.subset_cons_self _ _, (steps c o c' done).1.symm⟩
  refine ⟨(hands_tryConnection moves s good known).1, fun o result => ?_⟩
  have outcome : s.outcome (tryConnection k f) = (.ok o, (s.outcome (tryConnection k f)).2) :=
    Prod.ext result rfl
  obtain ⟨c, done, after⟩ := tryConnection_ok outcome
  obtain ⟨stepped, made⟩ := steps _ o c done
  rw [after]
  intro x mem
  obtain rfl := List.mem_singleton.1 mem
  exact C.makes _ good (known _ List.mem_cons_self)
    (fun y mem => known y (List.mem_cons_of_mem _ mem)) stepped.symm made

/-! ### Proxies -/

theorem addNotes_respects (notes : List Note) : SessionM.Respects C (addNotes notes) :=
  SessionM.hands_modify fun _ => .aside

theorem addNote_respects (note : Note) : SessionM.Respects C (addNote note) :=
  addNotes_respects [note]

section

variable (p : Proxy)

/-- A connection whose object can be used is one that names stand for. -/
theorem Proxy.live_connects : StepM.Hands C given p.live fun h => [.connection h.connection] := by
  intro s good known
  obtain ⟨⟨cause, outcome⟩, _⟩ | ⟨h, _, kept, outcome⟩ := live_cases s p
  · rw [outcome]
    exact ⟨C.refl good, fun _ result => by cases result⟩
  · rw [outcome]
    refine ⟨C.refl good, fun h' result => ?_⟩
    obtain rfl : h = h' := Except.ok.inj result
    intro x mem
    obtain rfl := List.mem_singleton.1 mem
    exact C.named good (means_of_keeps kept)

theorem Proxy.live_respects : StepM.Respects C p.live := p.live_connects.plain

theorem Proxy.marshal_respects (opcode : UInt16) (args : List Argument) :
    StepM.Respects C (p.marshal opcode args) :=
  p.live_respects.bind fun _ => StepM.hands_tryChannel fun _ =>
    Channel.sendRequest_step _ _ _ _ ▸ .step _ trivial rfl

theorem Proxy.setQueueId_respects (queue : QueueId) : StepM.Respects C (p.setQueueId queue) := by
  refine p.live_respects.bind fun h => StepM.hands_tryConnection fun c _ c' moved => ?_
  cases done : c.setQueue h.object queue with
  | error cause => simp [done, Except.map] at moved
  | ok c'' =>
    obtain rfl : c'' = c' := by simpa [done, Except.map] using moved
    exact setQueue_step done ▸ .step _ trivial rfl

theorem Proxy.setQueue_respects (queue : EventQueue) : StepM.Respects C (p.setQueue queue) := by
  unfold Proxy.setQueue
  split
  · exact StepM.hands_throw _
  · refine p.live_respects.bind fun h => ?_
    split
    · exact (StepM.respects_throw _).bind fun _ => p.setQueueId_respects _
    · exact p.setQueueId_respects _

theorem Proxy.destroy_respects : SessionM.Respects C p.destroy := by
  intro s good known
  refine ⟨?_, C.all_nil⟩
  obtain ⟨_, ran⟩ | ⟨h, _, _, _, _, ran⟩ := destroy_cases s p
  · rw [ran]
    exact C.refl good
  · rw [ran]
    exact C.moves _ good known (.step _ trivial rfl)

/-- The proxy that is left stands for nothing. -/
theorem Proxy.destroy_hands : SessionM.Hands C given p.destroy fun q => q.means := by
  intro s good _
  refine ⟨(p.destroy_respects s good C.all_nil).1, fun x mem => ?_⟩
  simp [Proxy.means, destroy_handle] at mem

theorem Proxy.destroyWithRequest_hands (opcode : UInt16) (args : List Argument) :
    SessionM.Hands C [] (p.destroyWithRequest opcode args) fun result => result.2.means := by
  have gone (sent : Except StepError Unit) :
      SessionM.Hands C [] (do return (sent, ← p.destroy) : SessionM (Except StepError Unit × Proxy))
        fun result => result.2.means :=
    p.destroy_hands.bind fun _ => SessionM.hands_pure (List.subset_append_left _ _)
  refine p.live_respects.run.bind fun live => ?_
  cases live with
  | error cause => exact gone (.ok ())
  | ok h =>
    refine .bind (StepM.Hands.run (StepM.hands_tryChannel fun _ =>
      Channel.sendRequest_step _ _ _ _ ▸ .step _ trivial rfl)) fun sent => ?_
    cases sent with
    | ok _ => exact SessionM.hands_pure (List.Subset.refl _)
    | error cause => exact gone (.error cause)

theorem Proxy.createVersioned_hands (interface : Interface) (version : UInt32) :
    StepM.Hands C [.table interface] (p.createVersioned interface version) Proxy.means := by
  refine p.live_connects.bind fun h => .next (StepM.hands_makes
    (.create h.object interface version) trivial fun _ _ _ created => createObject_step created)
    fun o => ?_
  exact StepM.hands_pure (List.Subset.refl _)

theorem Proxy.create_hands (interface : Interface) :
    StepM.Hands C [.table interface] (p.create interface) Proxy.means := by
  refine .bind (StepM.respects_get.weaken (List.nil_subset _)) fun s => ?_
  split
  · exact StepM.hands_throw _
  · exact p.createVersioned_hands _ _

theorem adoptObject_hands (k : ConnectionRef) (id : ObjectId) (interface : Interface) :
    StepM.Hands C [.connection k, .table interface] (adoptObject k id interface) Proxy.means := by
  refine .next (StepM.hands_makes (.adopt id interface) trivial
    fun _ _ _ adopted => adoptObject_step adopted) fun o => ?_
  exact StepM.hands_pure (List.Subset.refl _)

end

/-! ### Registries and callbacks -/

theorem Proxy.attach_cases (s : State) (p : Proxy) (interface : Interface) (handlers : Nat)
    (data : ObjectData) :
    ∃ k channel notes,
      (s.outcome (p.attach interface handlers data)).2 = s.putChannel k channel notes ∧
      (channel.connection = (s.channel k).connection ∨ ∃ o, p.handle = some ⟨k, o⟩ ∧
        channel.connection =
          ((s.channel k).connection.step (.attach o interface handlers data)).after) := by
  unfold Proxy.attach
  obtain ⟨⟨_, failed⟩, _⟩ | ⟨h, held, _, live⟩ := live_cases s p
  · rw [outcome_bind_error failed]
    exact ⟨0, s.channel 0, [], (putChannel_same s 0).symm, .inl rfl⟩
  · rw [outcome_bind_ok live, outcome_tryConnection]
    dsimp only
    cases attached :
        ((s.channel h.connection).connection.attach h.object interface handlers data).value with
    | error cause => exact ⟨_, _, _, rfl, .inl rfl⟩
    | ok result => exact ⟨_, _, _, rfl, .inr ⟨h.object, held, attach_step attached⟩⟩

/-- Whatever is attached, one connection takes one action at most. -/
theorem attachHandlers_cases (s : State) (p : Proxy) (interface : Interface) (data : ObjectData) :
    ∃ k channel notes,
      (s.putChannel k channel notes).Idle [] ((attachHandlers p interface data).run s).2 ∧
      (channel.connection = (s.channel k).connection ∨ ∃ o, p.handle = some ⟨k, o⟩ ∧
        channel.connection = ((s.channel k).connection.step
          (.attach o interface interface.events.length data)).after) := by
  obtain ⟨k, channel, notes, after, moved⟩ :=
    p.attach_cases s interface interface.events.length data
  refine ⟨k, channel, notes, ?_, moved⟩
  unfold attachHandlers
  rw [run_bind, run_outcome, ← after]
  -- Only the reason why there are no handlers is noted.
  split <;> exact .aside

section

variable {data : ObjectData}

/-- What a proxy stands for is all it takes to attach something to its object. -/
theorem moves_attach {p : Proxy} {k : ConnectionRef} {c c' : Connection ObjectData}
    {interface : Interface} {handlers : Nat} (offers : data.handlers = handlers)
    (other : ∀ cell, data ≠ .callback cell)
    (moved : c' = c ∨ ∃ o, p.handle = some ⟨k, o⟩ ∧
      c' = (c.step (.attach o interface handlers data)).after) : Moves p.means k c c' := by
  obtain unmoved | ⟨o, held, taken⟩ := moved
  · exact .inl unmoved
  · have plain : Plain (.attach o interface handlers data) := ⟨offers, other⟩
    exact .inr ⟨_, plain, by simp [needs, Proxy.means, held], taken⟩

theorem Proxy.attach_hands (p : Proxy) (interface : Interface) {handlers : Nat}
    (offers : data.handlers = handlers) (other : ∀ cell, data ≠ .callback cell) :
    StepM.Hands C p.means (p.attach interface handlers data) fun _ => [] := by
  intro s good known
  obtain ⟨k, channel, notes, after, moved⟩ := p.attach_cases s interface handlers data
  exact ⟨after ▸ C.moves notes good known (moves_attach offers other moved), fun _ _ => C.all_nil⟩

theorem attachHandlers_hands (p : Proxy) (interface : Interface)
    (offers : data.handlers = interface.events.length) (other : ∀ cell, data ≠ .callback cell) :
    SessionM.Hands C p.means (attachHandlers p interface data) fun _ => [] := by
  intro s good known
  obtain ⟨k, channel, notes, idle, moved⟩ := attachHandlers_cases s p interface data
  have attached : C.Rel s (s.putChannel k channel notes) :=
    C.moves notes good known (moves_attach offers other moved)
  exact ⟨C.trans attached (C.idle (C.stays good attached) C.all_nil idle), C.all_nil⟩

end

theorem Bound.drop_respects (b : Bound) : SessionM.Respects C b.drop :=
  b.proxy.destroy_respects.bind fun _ => SessionM.respects_pure _

theorem Proxy.listen_hands (p : Proxy) (own : Interface) (listener : Listener) :
    StepM.Hands C p.means (p.listen own listener) fun _ => [] := by
  have attaches (interface : Interface) : StepM.Hands C p.means (do
      let handlers := listener.handlers.getD interface.events.length
      p.attach interface handlers (.listener listener.context listener.label interface.name
        handlers listener.actions)) fun _ => [] := p.attach_hands interface rfl (by simp)
  unfold Proxy.listen
  split
  · exact (StepM.hands_interfaceNamed _).plain.bind attaches
  · exact ((StepM.respects_pure own).weaken (List.nil_subset _)).bind attaches

theorem boundInterface_hands (name : String) :
    StepM.Hands C given (boundInterface name) fun i => [.table i] := by
  have core {i : Interface} (core : i ∈ Protocol.Core.tables) :
      StepM.Hands C given (pure i : StepM Interface) fun i => [.table i] := by
    refine StepM.Hands.core (StepM.hands_pure ?_) core
    exact List.Subset.refl _
  unfold boundInterface
  split
  · exact core (by simp [Protocol.Core.tables])
  split
  · exact core (by simp [Protocol.Core.tables])
  · exact StepM.hands_interfaceNamed name

theorem announce_hands (object : Bound) (sender : Proxy) (opcode : UInt16)
    (args : List Argument) :
    StepM.Hands C object.proxy.means (announce object sender opcode args) (·.proxy.means) := by
  have asks := (sender.marshal_respects (C := C) opcode args).observing.weaken
    (List.nil_subset object.proxy.means)
  refine asks.bind fun sent => ?_
  cases sent with
  | ok _ => exact StepM.hands_pure (List.Subset.refl _)
  | error cause =>
    have drops := (StepM.hands_lift (object.drop_respects (C := C))).weaken
      (List.nil_subset object.proxy.means)
    exact drops.bind fun _ => StepM.hands_throw _

/-! ### Displays, queues and read intents -/

section

variable (d : Display)

theorem Display.live_hands : StepM.Hands C d.means d.live fun k => [.connection k] := by
  unfold Display.live
  split
  next k connected => exact StepM.hands_pure (by simp [Display.means, connected])
  · exact StepM.hands_throw _

theorem Display.live_respects : StepM.Respects C d.live := by
  unfold Display.live
  split
  · exact StepM.respects_pure _
  · exact StepM.hands_throw _

theorem Display.queueId_respects (queue : EventQueue) : StepM.Respects C (d.queueId queue) := by
  refine d.live_respects.bind fun k => ?_
  split
  · split
    · exact StepM.respects_pure _
    · exact StepM.hands_throw _
  · exact StepM.hands_throw _

theorem Display.taskQueue_respects (queue : Option EventQueue) :
    StepM.Respects C (d.taskQueue queue) := by
  unfold Display.taskQueue
  split
  · exact d.queueId_respects _
  · exact d.live_respects.bind fun _ => StepM.respects_pure _

theorem Display.destroy_respects : SessionM.Respects C d.destroy := by
  unfold Display.destroy
  split
  · exact .bind (SessionM.hands_onChannel fun _ => Channel.close_step ▸ .step _ trivial rfl)
      fun _ => SessionM.respects_pure _
  · exact SessionM.respects_pure _

end

section

variable (k : ConnectionRef)

theorem createQueue_respects : StepM.Respects C (createQueue k) :=
  .bind (StepM.hands_tryConnection fun _ _ _ created => createQueue_moves created) fun _ =>
    StepM.respects_pure _

theorem EventQueue.destroy_respects (q : EventQueue) : SessionM.Respects C q.destroy := by
  unfold EventQueue.destroy
  split
  · refine SessionM.respects_get.bind fun s => ?_
    split
    · exact .bind (SessionM.hands_onConnection fun _ => .step (.destroyQueue _) trivial rfl)
        fun _ => SessionM.respects_pure _
    · exact SessionM.respects_pure _
  · exact SessionM.respects_pure _

theorem prepareRead_respects (queue : QueueId) : StepM.Respects C (prepareRead k queue) := by
  refine StepM.hands_tryConnection fun c _ c' declared => ?_
  cases done : c.prepareRead queue with
  | error cause => simp [done, Except.map] at declared
  | ok c'' =>
    obtain rfl : c'' = c' := by simpa [done, Except.map] using declared
    exact prepareRead_moves done

theorem onChannel_readEvents_respects : SessionM.Respects C (onChannel k Channel.readEvents) :=
  SessionM.hands_onChannel fun _ => Channel.readEvents_step ▸ .step _ trivial rfl

theorem readEvents_respects : StepM.Respects C (readEvents k) := by
  refine .bind (StepM.hands_lift (onChannel_readEvents_respects k)) fun result => ?_
  cases result with
  | none => exact StepM.hands_throw _
  | some result => exact StepM.respects_ofClient _

theorem cancelRead_respects : SessionM.Respects C (cancelRead k) :=
  SessionM.hands_onConnection fun _ => .step .cancelRead trivial rfl

theorem flushConnection_respects : StepM.Respects C (flushConnection k) :=
  StepM.hands_tryChannel fun _ => Channel.flush_step ▸ .step _ trivial rfl

/-! ### Waiting for the compositor -/

/-- The compositor's script changes the socket only. -/
theorem serve_respects : SessionM.Respects C (serve k) := by
  intro s good _
  refine ⟨?_, C.all_nil⟩
  unfold serve
  rw [run_bind]
  dsimp only
  split
  · exact C.refl good
  next served link _ =>
    have socket : C.Rel s (s.putChannel k { s.channel k with link } []) :=
      C.moves [] good C.all_nil .refl
    exact C.trans socket (C.idle (C.stays good socket) C.all_nil .aside)

theorem waitReadable_respects (fuel : Nat) : StepM.Respects C (waitReadable k fuel) := by
  induction fuel with
  | zero => exact StepM.hands_throw _
  | succ fuel ih =>
    refine StepM.respects_get.bind fun s => ?_
    split
    · exact StepM.respects_pure _
    · refine .bind (StepM.hands_lift (serve_respects k)) fun moved => ?_
      split
      · exact ih
      · exact StepM.hands_throw _

theorem flushAll_respects (remark : Bool) (fuel : Nat) :
    StepM.Respects C (flushAll k remark fuel) := by
  induction fuel with
  | zero => exact StepM.hands_throw _
  | succ fuel ih =>
    -- The socket is full, and the compositor reads on or does not.
    have again : StepM.Respects C (do
        if ← (serve k : SessionM Bool) then flushAll k remark fuel else throw .stalled) := by
      refine .bind (StepM.hands_lift (serve_respects k)) fun moved => ?_
      split
      · exact ih
      · exact StepM.hands_throw _
    refine (flushConnection_respects k).observing.bind fun flushed => ?_
    split
    · exact StepM.respects_pure _
    · exact StepM.respects_pure _
    · split
      · exact .bind (StepM.hands_lift (addNote_respects _)) fun _ => again
      · exact again
    · exact StepM.hands_throw _

variable (patience : Nat)

theorem prepareAndFlush_respects (queue : QueueId) (remark : Bool) :
    StepM.Respects C (prepareAndFlush patience k queue remark) := by
  refine (prepareRead_respects k queue).bind fun _ =>
    (flushAll_respects k remark _).observing.bind fun flushed => ?_
  cases flushed with
  | ok _ => exact StepM.respects_pure _
  | error cause =>
    exact .bind (StepM.hands_lift (cancelRead_respects k)) fun _ => StepM.hands_throw _

theorem Task.read_respects : SessionM.Respects C (Task.read patience k) := by
  have waits : StepM.Respects C (do waitReadable k patience; readEvents k) :=
    (waitReadable_respects k patience).bind fun _ => readEvents_respects k
  exact waits.run.bind fun _ => SessionM.respects_pure _

end

/-! ### Names -/

theorem proxyNamed_hands (name : String) : StepM.Hands C [] (proxyNamed name) Proxy.means := by
  unfold proxyNamed
  split
  · refine StepM.hands_get.next fun s => ?_
    split
    next d found =>
      exact StepM.hands_pure fun x mem => means_of_display found (List.mem_append_right _ mem)
    · exact StepM.hands_throw _
  · exact (StepM.hands_bound _).next fun _ => StepM.hands_pure (List.Subset.refl _)

theorem proxyNamed_respects (name : String) : StepM.Respects C (proxyNamed name) :=
  (proxyNamed_hands name).plain

theorem plainNamed_hands (name : String) : StepM.Hands C [] (plainNamed name) Proxy.means := by
  refine (StepM.hands_bound _).next fun b => ?_
  split
  · exact StepM.hands_pure (List.Subset.refl _)
  · exact StepM.hands_throw _

theorem ownedNamed_hands (name : String) : StepM.Hands C [] (ownedNamed name) Proxy.means := by
  refine (plainNamed_hands name).next fun p => ?_
  split
  · exact StepM.hands_pure (List.Subset.refl _)
  · exact StepM.hands_throw _

theorem registryNamed_respects (name : String) : StepM.Respects C (registryNamed name) := by
  refine (StepM.respects_named _ _).bind fun b => ?_
  split
  · exact StepM.respects_pure _
  · exact StepM.hands_throw _

theorem callbackNamed_respects (name : String) : StepM.Respects C (callbackNamed name) := by
  refine (StepM.respects_named _ _).bind fun b => ?_
  split
  · exact StepM.respects_pure _
  · exact StepM.hands_throw _

theorem connectionOf_hands (source : ConnectionSource) :
    StepM.Hands C [] (connectionOf source) fun k => [.connection k] := by
  unfold connectionOf
  split
  · exact StepM.hands_named fun _ _ => means_of_held
  · refine (StepM.hands_display _).next fun d => ?_
    split
    next k connected => exact StepM.hands_pure (by simp [Display.means, connected])
    · exact StepM.hands_throw _

theorem queueNamed_respects (queue : Option String) : StepM.Respects C (queueNamed queue) := by
  unfold queueNamed
  split
  · exact (StepM.respects_named _ _).bind fun _ => StepM.respects_pure _
  · exact StepM.respects_pure _

/-- The object that a connection shows under a number. -/
theorem hands_borrow (k : ConnectionRef) (id : Option ObjectId) :
    StepM.Hands C [.connection k] (get : StepM State) fun s => (s.borrow k id).means := by
  intro s good known
  refine ⟨C.refl good, fun t result => ?_⟩
  obtain rfl : s = t := Except.ok.inj result
  intro x mem
  unfold Proxy.means State.borrow at mem
  simp only [Option.map_map, Option.mem_toList, Option.map_eq_some_iff, Option.bind_eq_some_iff,
    Function.comp_apply] at mem
  obtain ⟨o, ⟨number, _, shown⟩, rfl⟩ := mem
  exact C.shown good (known _ (List.mem_singleton_self _)) shown

theorem replaceProxy_hands (name : String) (b : Bound) :
    SessionM.Hands C b.proxy.means (replaceProxy name b) fun _ => [] :=
  SessionM.hands_modify fun _ => .proxies Names.means_insert

theorem bindProxy_hands (name : String) (b : Bound) :
    SessionM.Hands C b.proxy.means (bindProxy name b) fun _ => [] := by
  have answer : SessionM.Respects C (do return .proxy ((← get).info b.proxy) : SessionM Payload) :=
    SessionM.respects_get.bind fun _ => SessionM.respects_pure _
  refine .bind (SessionM.respects_get.weaken (List.nil_subset _)) fun s =>
    (replaceProxy_hands name b).next fun _ => ?_
  split
  · exact (Bound.drop_respects _).bind fun _ => answer
  · exact answer

theorem bindQueue_respects (name : String) (q : EventQueue) :
    SessionM.Respects C (bindQueue name q) := by
  refine SessionM.respects_get.bind fun s =>
    .bind (SessionM.hands_modify fun _ => .aside) fun _ => ?_
  split
  · exact (EventQueue.destroy_respects _).bind fun _ => SessionM.respects_pure _
  · exact SessionM.respects_pure _

theorem closeServer_respects (k : ConnectionRef) : SessionM.Respects C (closeServer k) :=
  SessionM.hands_onChannel fun _ => .refl

theorem bindIntent_hands (name : String) (k : ConnectionRef) :
    SessionM.Hands C [.connection k] (bindIntent name k) fun _ => [] := by
  refine .bind (SessionM.respects_get.weaken (List.nil_subset _)) fun s =>
    .next (SessionM.hands_modify fun _ => .intents Names.means_insert) fun _ => ?_
  split
  · exact cancelRead_respects _
  · exact SessionM.respects_pure _

theorem takeIntent_respects (name : String) : StepM.Respects C (takeIntent name) :=
  (StepM.respects_named _ _).bind fun _ =>
    .bind (StepM.hands_modify fun _ => .intents Names.means_erase) fun _ => StepM.respects_pure _

theorem takeIntents_respects (names : List String) : StepM.Respects C (takeIntents names) := by
  induction names with
  | nil => exact StepM.respects_pure _
  | cons name names ih =>
    refine (takeIntent_respects name).bind fun k => ih.observing.bind fun others => ?_
    cases others with
    | ok _ => exact StepM.respects_pure _
    | error cause =>
      -- A later name stands for nothing, so what was taken before is given up.
      exact .bind (StepM.hands_lift (cancelRead_respects k)) fun _ => StepM.hands_throw _

/-! ### Parts of steps -/

theorem marshalTimes_respects (p : Proxy) (opcode : UInt16) (args : List Argument) (times : Nat) :
    StepM.Respects C (marshalTimes p opcode args times) := by
  induction times with
  | zero => exact StepM.respects_pure _
  | succ times ih => exact (p.marshal_respects opcode args).bind fun _ => ih

theorem whileDispatching_respects {α : Type} {m : StepM α} (respects : StepM.Respects C m)
    (display : String) (queue : Option String) :
    StepM.Respects C (whileDispatching display queue m) :=
  .bind (StepM.hands_modify fun _ => .aside) fun _ => respects.observing.bind fun result =>
    .bind (StepM.hands_modify fun _ => .aside) fun _ => StepM.respects_ofExcept result

theorem requireIdleQueue_respects (name : String) : StepM.Respects C (requireIdleQueue name) := by
  refine StepM.respects_get.bind fun s => ?_
  split
  · exact StepM.hands_throw _
  · exact StepM.respects_pure _

theorem serveRest_respects (k : ConnectionRef) (fuel : Nat) :
    SessionM.Respects C (serveRest k fuel) := by
  induction fuel with
  | zero => exact SessionM.respects_pure _
  | succ fuel ih =>
    refine (serve_respects k).bind fun moved => ?_
    split
    · exact ih
    · exact SessionM.respects_pure _

theorem serving_respects (patience : Nat) {call : StepM Payload} (respects : StepM.Respects C call)
    (k : ConnectionRef) (acts : List ServerAct) :
    StepM.Respects C (serving patience k acts call) :=
  StepM.respects_get.bind fun _ => .bind (StepM.hands_modify fun _ => .aside) fun _ =>
    respects.observing.bind fun _ => .bind (StepM.hands_lift (serveRest_respects k _)) fun _ =>
      StepM.respects_get.bind fun _ => .bind (StepM.hands_modify fun _ => .aside) fun _ =>
        StepM.respects_pure _

theorem readTogether_respects (ks : List ConnectionRef) :
    SessionM.Respects C (readTogether ks) := by
  refine SessionM.respects_get.bind fun s => .bind (SessionM.respects_mapM (fun k => ?_) ks)
    fun _ => .bind (SessionM.hands_modify fun _ => .aside) fun _ => SessionM.respects_get.bind
      fun _ => SessionM.respects_pure _
  exact (onChannel_readEvents_respects k).bind fun _ => SessionM.respects_pure _

theorem drainFrom_respects (d : Display) (server : ConnectionRef) (fuel : Nat)
    (received : Received) : StepM.Respects C (drainFrom d server fuel received) := by
  induction fuel generalizing received with
  | zero => exact StepM.hands_throw _
  | succ fuel ih =>
    refine .bind (StepM.hands_lift (SessionM.hands_onChannel fun _ => .refl)) fun more =>
      d.live_respects.bind fun k => (flushConnection_respects k).observing.bind fun flushed => ?_
    split
    · exact StepM.respects_pure _
    · exact ih _
    · exact ih _
    · exact StepM.hands_throw _

end Wayland.Session
