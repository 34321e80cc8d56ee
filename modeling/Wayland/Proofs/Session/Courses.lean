import Wayland.Proofs.Client.EventOrder
import Wayland.Proofs.Client.TableHistory
import Wayland.Proofs.Session.Relations

/-! # The courses of the connections of a session

Whatever an application does, each connection of its session takes a course: a list of actions,
one after the other.  `State.Follows` relates two states of a session by the courses of its
connections between them, and says what else changes only together with a course: which callbacks
get handlers, which roundtrips are told that they are over, and which connections have displays.

Calls that hand out no events respect it (`courseCalls`).  A new callback gets its handlers at a
place that is new as well (`attach_follows`).
-/

namespace Wayland.Session

open Client (Action Connection Delivery Logged Note ClientError ObjectRef QueueId displayId)

/-! ## Names -/

namespace Names

variable {α : Type} (n : Names α) (name other : String)

theorem find?_cons (key : String) (a : α) (entries : List (String × α)) :
    (Names.mk ((key, a) :: entries)).find? other =
      if other = key then some a else (Names.mk entries).find? other := by
  unfold find?
  rw [List.lookup_cons]
  by_cases asked : other = key
  · simp [asked]
  · simp [asked, beq_false_of_ne asked]

theorem find?_erase :
    (n.erase name).find? other = if other = name then none else n.find? other := by
  obtain ⟨entries⟩ := n
  induction entries with
  | nil => simp [erase, find?]
  | cons entry entries ih =>
    obtain ⟨key, a⟩ := entry
    unfold erase at ih ⊢
    by_cases same : key = name
    · subst same
      simp only [beq_self_eq_true, Bool.not_true, Bool.false_eq_true, not_false_eq_true,
        List.filter_cons_of_neg, ih, find?_cons]
      split <;> rfl
    · simp only [same, Bool.not_eq_true', beq_eq_false_iff_ne, ne_eq, not_false_eq_true,
        List.filter_cons_of_pos, ih, find?_cons]
      grind

theorem find?_insert (a : α) :
    (n.insert name a).find? other = if other = name then some a else n.find? other := by
  unfold insert
  rw [find?_cons]
  split
  · rfl
  next apart => exact (n.find?_erase name other).trans (if_neg apart)

theorem any_of_find? {a : α} (condition : α → Bool) (found : n.find? name = some a)
    (holds : condition a = true) : n.any condition = true := by
  obtain ⟨before, after, entries, _⟩ := List.lookup_eq_some_iff.1 found
  simp [any, entries, holds]

end Names

/-! ## Connections and callbacks of a session -/

/-- A connection of a session; those to come are as they will be at first. -/
def State.connectionAt (s : State) (k : ConnectionRef) : Connection ObjectData :=
  match s.channels[k]? with
  | some channel => channel.connection
  | none => Connection.initial s.protocol

/-- Whether the roundtrip that waits for a callback was told that it is done. -/
def State.signalled (s : State) (cell : Nat) : Bool := (s.callbacks.getD cell {}).signalled

/-- The event says that a callback is done. -/
def TellsDone (d : Delivery ObjectData) (cell : Nat) : Prop :=
  d.data = .callback cell ∧ d.event.opcode = 0 ∧ ∃ value, d.event.args = [.uint value]

/-- The proxy of a display stands for `wl_display` of its connection. -/
def Display.Genuine (d : Display) (k : ConnectionRef) : Prop :=
  ∀ h, d.proxy.handle = some h → h.connection = k ∧ h.object.id = displayId

/-- Displays have connections, and a connection has a display until it is closed. -/
structure State.Displayed (s : State) : Prop where
  placed : ∀ {name : String} {d : Display} {k : ConnectionRef},
    s.displays.find? name = some d → d.connection = some k →
      k < s.channels.length ∧ d.Genuine k
  shown : ∀ {k : ConnectionRef}, k < s.channels.length → (s.connectionAt k).closed = false →
    ∃ name d, s.displays.find? name = some d ∧ d.connection = some k

section

variable {s s' : State} {k j : ConnectionRef} {channel : Channel} {notes : List Note}

theorem connectionAt_of_lt (known : k < s.channels.length) :
    s.connectionAt k = (s.channel k).connection := by
  simp [State.connectionAt, State.channel, List.getD_eq_getElem?_getD, known]

theorem connectionAt_of_le (unknown : s.channels.length ≤ k) :
    s.connectionAt k = Connection.initial s.protocol := by
  simp [State.connectionAt, unknown]

theorem connectionAt_congr (protocol : s'.protocol = s.protocol)
    (channels : s'.channels = s.channels) : s'.connectionAt k = s.connectionAt k := by
  simp [State.connectionAt, protocol, channels]

theorem connectionAt_putChannel :
    (s.putChannel k channel notes).connectionAt j =
      if j = k ∧ k < s.channels.length then channel.connection else s.connectionAt j := by
  unfold State.connectionAt State.putChannel
  by_cases same : j = k
  · subst same
    by_cases known : j < s.channels.length <;> simp [known]
  · simp [same, Ne.symm same]

theorem channel_putChannel (known : k < s.channels.length) :
    (s.putChannel k channel notes).channel k = channel := by
  simp [State.putChannel, State.channel, List.getD_eq_getElem?_getD, known]

theorem signalled_modify {f : CallbackHandlers → CallbackHandlers} {cell j : Nat}
    (same : ∀ c, (f c).signalled = c.signalled) :
    State.signalled { s with callbacks := s.callbacks.modify cell f } j = s.signalled j := by
  simp only [State.signalled, List.getD_eq_getElem?_getD, List.getElem?_modify]
  cases s.callbacks[j]? with
  | none => rfl
  | some c =>
    by_cases here : cell = j <;> simp [here, same]

theorem signalled_modify_ne (f : CallbackHandlers → CallbackHandlers) {cell j : Nat}
    (apart : cell ≠ j) :
    State.signalled { s with callbacks := s.callbacks.modify cell f } j = s.signalled j := by
  simp [State.signalled, List.getD_eq_getElem?_getD, apart]

theorem signalled_append {j : Nat} :
    State.signalled { s with callbacks := s.callbacks ++ [{}] } j = s.signalled j := by
  simp only [State.signalled, List.getD_eq_getElem?_getD, List.getElem?_append]
  split
  · rfl
  next beyond =>
    have unknown : s.callbacks[j]? = none := List.getElem?_eq_none (Nat.le_of_not_lt beyond)
    rw [unknown, List.getElem?_singleton]
    split <;> rfl

theorem State.Displayed.keeps (displayed : s.Displayed) (known : k < s.channels.length)
    (isOpen : (s.connectionAt k).closed = false) : s.keeps k = true := by
  obtain ⟨name, d, found, connected⟩ := displayed.shown known isOpen
  have kept := s.displays.any_of_find? name (·.connection == some k) found (by simp [connected])
  simp [State.keeps, kept]

end

/-! ## From state to state -/

/-- The session has moved on, and its connections have taken their courses meanwhile.  Callbacks
    that get handlers are new, from place `fresh` on.  A roundtrip is told that it is over only by
    an event that was handed out, or because of `told`. -/
structure State.Advances (told : Nat → Prop) (fresh : Nat)
    (course : ConnectionRef → List (Action ObjectData)) (s s' : State) : Prop where
  protocol : s'.protocol = s.protocol
  channels : s.channels.length ≤ s'.channels.length
  callbacks : s.callbacks.length ≤ s'.callbacks.length
  connections : ∀ k, s'.connectionAt k = (s.connectionAt k).run (course k)
  attached : ∀ {k : ConnectionRef} {o : ObjectRef} {interface : Interface} {handlers cell : Nat},
    .attach o interface handlers (.callback cell) ∈ course k →
      fresh ≤ cell ∧ cell < s'.callbacks.length
  signals : ∀ {cell : Nat}, s'.signalled cell = true →
    s.signalled cell = true ∨ told cell ∨
      ∃ k, ∃ t ∈ (s.connectionAt k).trace (course k), ∃ d, t.delivery? = some d ∧ TellsDone d cell

/-- The session has moved on, and no open connection has lost its display. -/
structure State.Follows (told : Nat → Prop) (fresh : Nat)
    (course : ConnectionRef → List (Action ObjectData)) (s s' : State) : Prop
    extends s.Advances told fresh course s' where
  displayed : s.Displayed → s'.Displayed

section

variable {told told' : Nat → Prop} {fresh fresh' : Nat}
  {course course' : ConnectionRef → List (Action ObjectData)} {s s' s'' : State}

theorem State.Advances.trans (first : s.Advances told fresh course s')
    (second : s'.Advances told fresh course' s'') :
    s.Advances told fresh (fun k => course k ++ course' k) s'' where
  protocol := second.protocol.trans first.protocol
  channels := Nat.le_trans first.channels second.channels
  callbacks := Nat.le_trans first.callbacks second.callbacks
  connections k := by rw [second.connections, first.connections, Connection.run_append]
  attached mem := by
    obtain earlier | later := List.mem_append.1 mem
    · obtain ⟨isFresh, known⟩ := first.attached earlier
      exact ⟨isFresh, Nat.lt_of_lt_of_le known second.callbacks⟩
    · exact second.attached later
  signals done := by
    -- The later course starts where the earlier one has led.
    have joined : ∀ k, (s.connectionAt k).trace (course k ++ course' k) =
        (s.connectionAt k).trace (course k) ++ (s'.connectionAt k).trace (course' k) := by
      intro k
      rw [Connection.trace_append, first.connections]
    simp only [joined, List.mem_append]
    obtain before | because | ⟨k, t, mem, delivered⟩ := second.signals done
    · obtain earlier | because | ⟨k, t, mem, delivered⟩ := first.signals before
      · exact .inl earlier
      · exact .inr (.inl because)
      · exact .inr (.inr ⟨k, t, .inl mem, delivered⟩)
    · exact .inr (.inl because)
    · exact .inr (.inr ⟨k, t, .inr mem, delivered⟩)

theorem State.Advances.open_before (advances : s.Advances told fresh course s')
    {k : ConnectionRef} (isOpen : (s'.connectionAt k).closed = false) :
    (s.connectionAt k).closed = false := by
  refine Bool.eq_false_iff.2 fun closed => ?_
  rw [advances.connections, Connection.run_closed closed] at isOpen
  cases isOpen

namespace State.Follows

/-- No connection has moved; callbacks may have changed. -/
theorem quiet (protocol : s'.protocol = s.protocol) (channels : s'.channels = s.channels)
    (displays : s'.displays = s.displays) (callbacks : s.callbacks.length ≤ s'.callbacks.length)
    (signals : ∀ cell, s'.signalled cell = true → s.signalled cell = true ∨ told cell) :
    s.Follows told fresh (fun _ => []) s' where
  protocol := protocol
  channels := Nat.le_of_eq (congrArg List.length channels.symm)
  callbacks := callbacks
  connections _ := connectionAt_congr protocol channels
  attached := by simp
  signals done := (signals _ done).imp_right .inl
  displayed displayed :=
    { placed := by
        rw [displays, channels]
        exact displayed.placed
      shown := by
        intro k
        rw [displays, channels, connectionAt_congr protocol channels]
        exact displayed.shown }

theorem idle (protocol : s'.protocol = s.protocol) (channels : s'.channels = s.channels)
    (displays : s'.displays = s.displays) (callbacks : s'.callbacks = s.callbacks) :
    s.Follows told fresh (fun _ => []) s' :=
  quiet protocol channels displays (Nat.le_of_eq (congrArg List.length callbacks.symm))
    fun cell done => .inl (by simpa [State.signalled, callbacks] using done)

theorem refl : s.Follows told fresh (fun _ => []) s := idle rfl rfl rfl rfl

theorem trans (first : s.Follows told fresh course s')
    (second : s'.Follows told fresh course' s'') :
    s.Follows told fresh (fun k => course k ++ course' k) s'' where
  toAdvances := first.toAdvances.trans second.toAdvances
  displayed displayed := second.displayed (first.displayed displayed)

theorem mono (follows : s.Follows told fresh course s') (older : fresh' ≤ fresh)
    (because : ∀ cell, told cell → told' cell) : s.Follows told' fresh' course s' :=
  { follows with
    attached := fun mem =>
      (follows.attached mem).imp_left (Nat.le_trans older)
    signals := fun done => (follows.signals done).imp_right (.imp_left (because _)) }

/-- What was told is accounted for by the courses. -/
theorem settled (follows : s.Follows told fresh course s')
    (because : ∀ cell, told cell → ∃ k, ∃ t ∈ (s.connectionAt k).trace (course k), ∃ d,
      t.delivery? = some d ∧ TellsDone d cell) :
    s.Follows told' fresh course s' :=
  { follows with
    signals := fun done => (follows.signals done).imp_right fun other =>
      .inr (other.elim (because _) id) }

/-- One connection of a session takes a course. -/
theorem putChannel {k : ConnectionRef} {channel : Channel} {actions : List (Action ObjectData)}
    (notes : List Note) (moved : channel.connection = (s.channel k).connection.run actions)
    (attached : ∀ {o : ObjectRef} {interface : Interface} {handlers cell : Nat},
      .attach o interface handlers (.callback cell) ∈ actions →
        fresh ≤ cell ∧ cell < s.callbacks.length) :
    s.Follows told fresh (fun j => if j = k ∧ k < s.channels.length then actions else [])
      (s.putChannel k channel notes) := by
  have advances : s.Advances told fresh
      (fun j => if j = k ∧ k < s.channels.length then actions else [])
      (s.putChannel k channel notes) := by
    refine
      { protocol := rfl, channels := by simp [State.putChannel], callbacks := Nat.le_refl _
        connections := ?_, attached := ?_, signals := .inl }
    · intro j
      rw [connectionAt_putChannel]
      split
      next here => rw [here.1, connectionAt_of_lt here.2, moved]
      next => rfl
    · intro j _ _ _ _ mem
      split at mem
      · exact attached mem
      · cases mem
  have length : (s.putChannel k channel notes).channels.length = s.channels.length := by
    simp [State.putChannel]
  refine { advances with displayed := fun displayed => ⟨?_, ?_⟩ }
  · exact fun found connected => length ▸ displayed.placed found connected
  · exact fun known isOpen => displayed.shown (length ▸ known) (advances.open_before isOpen)

theorem andThen (first : s.Follows told s.callbacks.length course s')
    (second : s'.Follows told s'.callbacks.length course' s'') :
    s.Follows told s.callbacks.length (fun k => course k ++ course' k) s'' :=
  first.trans (second.mono first.callbacks fun _ => id)

end State.Follows

end

/-! ## Computations -/

section

variable {α : Type} {told : Nat → Prop}

/-- The session moves on along courses of its connections. -/
def SessionM.Leads (told : Nat → Prop) (m : SessionM α) : Prop :=
  ∀ s : State, ∃ course, s.Follows told s.callbacks.length course (m.run s).2

/-- The same of a computation that may fail. -/
def StepM.Leads (told : Nat → Prop) (m : StepM α) : Prop :=
  ∀ s : State, ∃ course, s.Follows told s.callbacks.length course (s.outcome m).2

/-- One state follows upon another along some course. -/
def courseCalls (told : Nat → Prop) : CallRelation where
  Good _ := True
  Knows _ _ := True
  Rel s t := ∃ course, s.Follows told s.callbacks.length course t
  refl _ := ⟨_, .refl⟩
  trans first second := by
    obtain ⟨_, follows⟩ := first
    obtain ⟨_, more⟩ := second
    exact ⟨_, follows.andThen more⟩
  stays _ _ := trivial
  keeps _ _ _ := trivial
  named _ _ := trivial
  tabled _ := trivial
  shown _ _ _ := trivial
  idle _ _ idle := ⟨_, .idle idle.protocol idle.channels idle.displays idle.callbacks⟩
  moves {s k channel _} notes _ _ moves := by
    obtain unmoved | ⟨action, plain, _, moved⟩ := moves
    · have stays : channel.connection = (s.channel k).connection.run [] := unmoved
      exact ⟨_, .putChannel notes stays (by simp)⟩
    · have takes : channel.connection = (s.channel k).connection.run [action] := moved
      refine ⟨_, .putChannel notes takes fun {_ _ _ cell} mem => ?_⟩
      cases List.mem_singleton.1 mem
      exact absurd rfl (plain.2 cell)
  makes _ _ _ _ _ _ := trivial

theorem SessionM.Hands.leads {m : SessionM α} (respects : SessionM.Respects (courseCalls told) m) :
    SessionM.Leads told m := fun s => (respects s trivial (courseCalls told).all_nil).1

theorem SessionM.Leads.respects {m : SessionM α} (leads : SessionM.Leads told m) :
    SessionM.Respects (courseCalls told) m := fun s _ _ => ⟨leads s, (courseCalls told).all_nil⟩

theorem StepM.Hands.leads {m : StepM α} (respects : StepM.Respects (courseCalls told) m) :
    StepM.Leads told m := fun s => (respects s trivial (courseCalls told).all_nil).1

theorem SessionM.Leads.mono {told' : Nat → Prop} {m : SessionM α} (leads : SessionM.Leads told m)
    (because : ∀ cell, told cell → told' cell) : SessionM.Leads told' m := by
  intro s
  obtain ⟨_, follows⟩ := leads s
  exact ⟨_, follows.mono (Nat.le_refl _) because⟩

/-- The handlers of a callback have a place of their own before they are attached. -/
theorem callback_follows (s : State) : s.Follows told s.callbacks.length (fun _ => [])
    { s with callbacks := s.callbacks ++ [{}] } :=
  .quiet rfl rfl rfl (by simp) fun _ done => .inl (signalled_append ▸ done)

theorem attach_follows {s : State} {k : ConnectionRef} {channel : Channel} {o : ObjectRef}
    {interface : Interface} {handlers : Nat} (notes : List Note)
    (moved : channel.connection = ((s.channel k).connection.step
      (.attach o interface handlers (.callback s.callbacks.length))).after) :
    ∃ course, s.Follows told s.callbacks.length course
      { s.putChannel k channel notes with callbacks := s.callbacks ++ [{}] } := by
  let placed : State := { s with callbacks := s.callbacks ++ [{}] }
  have takes : channel.connection = (placed.channel k).connection.run
    [.attach o interface handlers (.callback s.callbacks.length)] := moved
  have attached : placed.Follows told s.callbacks.length _ (placed.putChannel k channel notes) :=
    .putChannel notes takes fun mem => by
      cases List.mem_singleton.1 mem
      simp [placed]
  exact ⟨_, (callback_follows s).trans attached⟩

end

end Wayland.Session
