import Wayland.Proofs.Client.Lineage
import Wayland.Proofs.Session.Courses
import Wayland.Proofs.Session.ScriptRelations

/-! # The courses that scripts lead to

A session that runs a script moves on along courses of its connections (`courseScripts`).  What is
special to courses: a roundtrip is told that it is over by an event that was handed out just
before, and a display goes away together with its connection.
-/

namespace Wayland.Session

open Client (Action Connection Delivery Logged Note ClientError ObjectRef QueueId QueuedEvent)

variable {told : Nat → Prop} {act : Act}

/-- The steps of handlers move the session along courses. -/
def Act.Leads (act : Act) : Prop := ∀ steps, SessionM.Leads (fun _ => False) (act steps)

/-! ## Handlers -/

/-- What a step lists is no part of a course. -/
theorem modifyFrame_leads (f : State → Frame) :
    SessionM.Respects (courseCalls told) (modify fun s => { s with frame := f s }) :=
  SessionM.Leads.respects fun _ => ⟨_, .idle rfl rfl rfl rfl⟩

theorem callHandler_leads (leads : act.Leads) (label : String) (cause : Cause)
    (actions : List Step) :
    SessionM.Respects (courseCalls told) (callHandler act label cause actions) := by
  have runs : SessionM.Respects (courseCalls told) (act actions) :=
    ((leads actions).mono fun _ => False.elim).respects
  exact runs.bind fun _ => modifyFrame_leads _

theorem modifyRegistry_leads (cell : Nat) (f : RegistryHandlers → RegistryHandlers) :
    SessionM.Respects (courseCalls told) (modifyRegistry cell f) :=
  SessionM.Leads.respects fun _ => ⟨_, .idle rfl rfl rfl rfl⟩

theorem modifyCallback_run (s : State) (cell : Nat) (f : CallbackHandlers → CallbackHandlers) :
    (modifyCallback cell f).run s = ((), { s with callbacks := s.callbacks.modify cell f }) := rfl

/-- Handlers are set and taken away; whether the callback was signalled stays as it is. -/
theorem modifyCallback_leads (cell : Nat) {f : CallbackHandlers → CallbackHandlers}
    (same : ∀ c, (f c).signalled = c.signalled) :
    SessionM.Respects (courseCalls told) (modifyCallback cell f) :=
  SessionM.Leads.respects fun s =>
    ⟨_, .quiet rfl rfl rfl (by simp [modifyCallback_run]) fun _ done =>
      .inl (signalled_modify same ▸ done)⟩

theorem handleGlobal_leads (leads : act.Leads) (k : ConnectionRef) (cell : Nat)
    (event : QueuedEvent) :
    SessionM.Respects (courseCalls told) (handleGlobal act k cell event) := by
  unfold handleGlobal
  split
  · refine (addNote_respects _).bind fun _ => SessionM.respects_get.bind fun _ =>
      SessionM.respects_get.bind fun _ => ?_
    split
    · exact SessionM.respects_pure _
    · exact (modifyRegistry_leads _ _).bind fun _ => .bind (SessionM.hands_modify fun _ => .aside)
        fun _ => (callHandler_leads leads _ _ _).bind fun _ =>
          .bind (SessionM.hands_modify fun _ => .aside) fun _ => modifyRegistry_leads _ _
  · exact addNote_respects _

theorem handleGlobalRemove_leads (leads : act.Leads) (cell : Nat) (event : QueuedEvent) :
    SessionM.Respects (courseCalls told) (handleGlobalRemove act cell event) := by
  unfold handleGlobalRemove
  split
  · refine (addNote_respects _).bind fun _ => SessionM.respects_get.bind fun _ => ?_
    split
    · exact SessionM.respects_pure _
    · exact (modifyRegistry_leads _ _).bind fun _ => (callHandler_leads leads _ _ _).bind fun _ =>
        modifyRegistry_leads _ _
  · exact addNote_respects _

/-- A roundtrip may be told that it is over. -/
theorem handleDone_leads (leads : act.Leads) {cell : Nat} {event : QueuedEvent}
    (tells : ∀ value, event.args = [.uint value] → told cell) :
    SessionM.Respects (courseCalls told) (handleDone act cell event) := by
  unfold handleDone
  split
  next value args =>
    refine SessionM.respects_get.bind fun s => .bind (modifyCallback_leads cell fun _ => ?_)
      fun _ => ?_
    · rfl
    split
    · exact SessionM.respects_pure _
    · exact callHandler_leads leads _ _ _
    · refine SessionM.Leads.respects fun s => ?_
      refine ⟨_, .quiet rfl rfl rfl (by simp [modifyCallback_run]) fun j done => ?_⟩
      by_cases here : cell = j
      · exact .inr (here ▸ tells value args)
      · exact .inl (signalled_modify_ne _ here ▸ done)
  · exact addNote_respects _

theorem deliver_leads (leads : act.Leads) (k : ConnectionRef) (d : Delivery ObjectData) :
    SessionM.Leads (TellsDone d) (deliver act k d) := by
  refine SessionM.Hands.leads ((addNote_respects _).bind fun _ => ?_)
  split
  · split
    · exact SessionM.respects_get.bind fun _ => callHandler_leads leads _ _ _
    · exact addNote_respects _
  · exact handleGlobal_leads leads k _ _
  · exact handleGlobalRemove_leads leads _ _
  · exact addNote_respects _
  next cell data opcode =>
    refine handleDone_leads leads fun value args => ⟨data, ?_, value, args⟩
    exact UInt16.toNat_inj.1 opcode
  · exact addNote_respects _

/-! ## Dispatching -/

/-- A connection that is not there has nothing to hand out. -/
theorem lt_of_delivery {s : State} {k : ConnectionRef} {queue : QueueId} {d : Delivery ObjectData}
    (delivered : ((s.channel k).connection.step (.next queue)).delivery? = some d) :
    k < s.channels.length := by
  refine Nat.lt_of_not_le fun unknown => ?_
  have fresh : (s.channel k).connection = Connection.initial default := by
    simp [State.channel, List.getD_eq_getElem?_getD, unknown, default]
  rw [fresh] at delivered
  obtain ⟨_, _, nobody, _⟩ | ⟨_, _, ⟨nobody, _⟩ | ⟨_, rest, _, _, events, _⟩⟩ :=
    (Connection.initial default).step_next_cases queue
  · rw [nobody] at delivered
    cases delivered
  · rw [nobody] at delivered
    cases delivered
  · rw [Connection.initial, Client.EventQueues.get?_initial] at events
    split at events <;> simp at events

theorem popped_follows (s : State) (k : ConnectionRef) (queue : QueueId) :
    s.Follows told s.callbacks.length
      (fun j => if j = k ∧ k < s.channels.length then [.next queue] else []) (s.popped k queue) :=
  .putChannel _ rfl (by simp)

/-- What the delivery tells is told by the event that was popped just before. -/
theorem delivers_leads (leads : act.Leads) {s : State} {k : ConnectionRef} {queue : QueueId}
    {d : Delivery ObjectData} (handed : s.handsOut k queue = some d) :
    ∃ course, s.Follows told s.callbacks.length course
      ((deliver act k d).run (s.popped k queue)).2 := by
  obtain ⟨_, delivered⟩ := deliver_leads leads k d (s.popped k queue)
  refine ⟨_, ((popped_follows s k queue).andThen delivered).settled fun cell tells => ?_⟩
  have known := lt_of_delivery handed
  refine ⟨k, (s.connectionAt k).step (.next queue), ?_, d, ?_, tells⟩
  · simp [known, Connection.trace]
  · rw [connectionAt_of_lt known]
    exact handed

/-! ## Displays that come and go -/

/-- What one name of a display stands for changes, once the connection of what it stood for before
    is closed. -/
theorem State.Displayed.replace {s t : State} (displayed : s.Displayed) (name : String)
    (others : ∀ other, other ≠ name → t.displays.find? other = s.displays.find? other)
    (length : s.channels.length ≤ t.channels.length)
    (placed : ∀ d k, t.displays.find? name = some d → d.connection = some k →
      k < t.channels.length ∧ d.Genuine k)
    (shown : ∀ k, k < t.channels.length → (t.connectionAt k).closed = false →
      (∃ d, t.displays.find? name = some d ∧ d.connection = some k) ∨
        k < s.channels.length ∧ (s.connectionAt k).closed = false ∧
          ∀ d, s.displays.find? name = some d → d.connection ≠ some k) :
    t.Displayed where
  placed := by
    intro other d k found connected
    by_cases same : other = name
    · exact placed d k (same ▸ found) connected
    · rw [others other same] at found
      exact (displayed.placed found connected).imp_left (Nat.lt_of_lt_of_le · length)
  shown := by
    intro k known isOpen
    obtain ⟨d, found, connected⟩ | ⟨before, openBefore, apart⟩ := shown k known isOpen
    · exact ⟨name, d, found, connected⟩
    · obtain ⟨other, d, found, connected⟩ := displayed.shown before openBefore
      have differs : other ≠ name := fun same => apart d (same ▸ found) connected
      exact ⟨other, d, (others other differs).trans found, connected⟩

theorem close_closed (c : Connection ObjectData) (outcomes : List Client.SendOutcome) :
    (c.step (.close outcomes)).after.closed = true := by
  obtain ⟨closed, value⟩ | ⟨_, _, value⟩ := Connection.close_value c outcomes
  · simp [Connection.step, Connection.perform, value, closed]
  · simp [Connection.step, Connection.perform, value]

theorem Display.destroy_closes {s : State} {d : Display} {k : ConnectionRef}
    (connected : d.connection = some k) (known : k < s.channels.length) :
    (((d.destroy).run s).2.connectionAt k).closed = true := by
  rw [display_destroy_run connected, connectionAt_putChannel, if_pos ⟨rfl, known⟩,
    Channel.close_step]
  exact close_closed _ _

theorem Display.destroy_displays (d : Display) (s : State) :
    (d.destroy.run s).2.displays = s.displays ∧
      (d.destroy.run s).2.channels.length = s.channels.length := by
  cases connected : d.connection with
  | none =>
    rw [display_destroy_again connected]
    exact ⟨rfl, rfl⟩
  | some k =>
    rw [display_destroy_run connected]
    exact ⟨rfl, by simp [State.putChannel]⟩

/-- The name of a display stands for something else once its display is destroyed. -/
theorem Display.destroy_follows {s : State} {d : Display} {name : String} {displays : Names Display}
    (found : s.displays.find? name = some d)
    (others : ∀ other, other ≠ name → displays.find? other = s.displays.find? other)
    (gone : ∀ d k, displays.find? name = some d → d.connection ≠ some k) :
    ∃ course, s.Follows told s.callbacks.length course
      { (d.destroy.run s).2 with displays } := by
  obtain ⟨course, follows⟩ := (d.destroy_respects (C := courseCalls told)).leads s
  have same := (d.destroy_displays s).1
  refine ⟨course, { follows with displayed := fun displayed => ?_ }⟩
  have after := follows.displayed displayed
  refine after.replace name ?_ (Nat.le_refl _) ?_ ?_
  · intro other apart
    rw [same]
    exact others other apart
  · intro d k bound connected
    exact absurd connected (gone d k bound)
  · intro k known isOpen
    refine .inr ⟨known, isOpen, fun d' found' connected => ?_⟩
    rw [same, found] at found'
    obtain rfl := Option.some.inj found'
    have closed := d.destroy_closes connected (displayed.placed found connected).1
    exact absurd (isOpen.symm.trans closed) nofun

/-- A new channel. -/
def State.nextChannel (s : State) : Channel :=
  { connection := Connection.initial s.protocol, link := {} }

/-- The display of a connection that is added. -/
def State.openedDisplay (s : State) : Display where
  connection := some s.channels.length
  proxy := { s with channels := s.channels ++ [s.nextChannel] }.borrow s.channels.length
    (some Client.displayId)

/-- The session with one more connection, and its display under a name. -/
def State.opened (s : State) (name : String) : State :=
  { s with
    channels := s.channels ++ [s.nextChannel]
    displays := s.displays.insert name s.openedDisplay
    servers := s.servers.insert name s.channels.length
    frame := { s.frame with notes := s.frame.notes ++ [Note.displayReady] } }

theorem openDisplay_run (s : State) (name : String) :
    (openDisplay name).run s =
      let s' := match s.displays.find? name with
        | some old => (old.destroy.run (s.opened name)).2
        | none => s.opened name
      match s.servers.find? name with
      | some old => (closeServer old).run s'
      | none => ((), s') := by
  unfold openDisplay
  rw [run_bind, run_bind, run_bind, run_bind]
  change (match s.displays.find? name with
    | some _ => _
    | none => _ : SessionM Unit).run (s.opened name) = _
  split
  all_goals
    change (match s.servers.find? name with
      | some _ => _
      | none => _ : SessionM Unit).run _ = _
    split <;> rfl

theorem connectionAt_opened (s : State) (name : String) (k : ConnectionRef) :
    (s.opened name).connectionAt k = s.connectionAt k := by
  obtain known | rfl | unknown := Nat.lt_trichotomy k s.channels.length
  · simp [State.connectionAt, State.opened, List.getElem?_append, known]
  · simp [State.connectionAt, State.opened, State.nextChannel]
  · have beyond : (s.opened name).channels.length ≤ k := by
      rw [State.opened, List.length_append]
      exact unknown
    rw [connectionAt_of_le beyond, connectionAt_of_le (Nat.le_of_lt unknown)]
    rfl

theorem opened_advances (s : State) (name : String) :
    s.Advances told s.callbacks.length (fun _ => []) (s.opened name) where
  protocol := rfl
  channels := by simp [State.opened]
  callbacks := Nat.le_refl _
  connections k := connectionAt_opened s name k
  attached := by simp
  signals := .inl

/-- A connection is added, the display that the name stood for is destroyed, and the compositor's
    end that it stood for is closed. -/
theorem openDisplay_effect (told : Nat → Prop) (s : State) (name : String) :
    ∃ course, (s.opened name).Follows told s.callbacks.length course ((openDisplay name).run s).2 ∧
      ((openDisplay name).run s).2.displays = (s.opened name).displays ∧
      ((openDisplay name).run s).2.channels.length = (s.opened name).channels.length ∧
      ∀ old k, s.displays.find? name = some old → old.connection = some k →
        k < s.channels.length → (((openDisplay name).run s).2.connectionAt k).closed = true := by
  rw [openDisplay_run]
  dsimp only
  generalize ended : (match s.displays.find? name with
    | some old => (old.destroy.run (s.opened name)).2
    | none => s.opened name) = t
  have first : ∃ course, (s.opened name).Follows told s.callbacks.length course t ∧
      t.displays = (s.opened name).displays ∧
      t.channels.length = (s.opened name).channels.length ∧
      ∀ old k, s.displays.find? name = some old → old.connection = some k →
        k < s.channels.length → (t.connectionAt k).closed = true := by
    cases found : s.displays.find? name with
    | none =>
      rw [found] at ended
      subst ended
      exact ⟨_, .refl, rfl, rfl, nofun⟩
    | some old =>
      rw [found] at ended
      subst ended
      obtain ⟨course, follows⟩ :=
        (old.destroy_respects (C := courseCalls told)).leads (s.opened name)
      refine ⟨course, follows, (old.destroy_displays _).1, (old.destroy_displays _).2, ?_⟩
      rintro _ k ⟨⟩ connected known
      exact old.destroy_closes connected (Nat.lt_of_lt_of_le known (by simp [State.opened]))
  obtain ⟨_, destroys, displays, length, closes⟩ := first
  cases s.servers.find? name with
  | none => exact ⟨_, destroys, displays, length, closes⟩
  | some server =>
    obtain ⟨_, cuts⟩ := (closeServer_respects (C := courseCalls told) server).leads t
    refine ⟨_, destroys.trans (cuts.mono destroys.callbacks fun _ => id), displays, ?_, ?_⟩
    · rw [← length]
      simp [closeServer, onChannel_run, State.putChannel]
    · intro old k found connected known
      rw [cuts.connections]
      exact Connection.run_closed (closes old k found connected known) _

/-- A new connection has a display from the start, and one that loses its display is closed. -/
theorem openDisplay_leads (name : String) : SessionM.Leads told (openDisplay name) := by
  intro s
  obtain ⟨course, follows, displays, length, closes⟩ := openDisplay_effect told s name
  have advances := (opened_advances s name).trans follows.toAdvances
  have one : (s.opened name).channels.length = s.channels.length + 1 := by simp [State.opened]
  rw [one] at length
  refine ⟨_, { advances with displayed := fun displayed => displayed.replace name ?_ ?_ ?_ ?_ }⟩
  · intro other apart
    rw [displays, State.opened, Names.find?_insert, if_neg apart]
  · exact advances.channels
  · intro d k found connected
    rw [displays, State.opened, Names.find?_insert, if_pos rfl] at found
    cases found
    cases connected
    refine ⟨length ▸ Nat.lt_succ_self _, fun h held => ?_⟩
    obtain ⟨o, found, rfl⟩ := Option.map_eq_some_iff.1 held
    obtain ⟨_, _, rfl⟩ := Option.map_eq_some_iff.1 found
    exact ⟨rfl, rfl⟩
  · intro k known isOpen
    rw [length] at known
    obtain before | rfl := Nat.lt_succ_iff_lt_or_eq.1 known
    · refine .inr ⟨before, advances.open_before isOpen, fun old found connected => ?_⟩
      rw [closes old k found connected before] at isOpen
      cases isOpen
    · refine .inl ⟨s.openedDisplay, ?_, rfl⟩
      rw [displays, State.opened, Names.find?_insert, if_pos rfl]

/-! ## Steps and scripts -/

theorem outcome_named {α : Type} {s : State} (table : State → Names α) (name : String) :
    s.outcome (named table name) =
      match (table s).find? name with
      | some a => (.ok a, s)
      | none => (.error (.noSuchName name), s) := by
  unfold named
  rw [outcome_bind, outcome_get]
  dsimp only
  cases (table s).find? name <;> rfl

theorem outcome_requireIdleDisplay {s : State} (name : String) :
    s.outcome (requireIdleDisplay name) =
      if s.dispatching.any (·.1 == name) then (.error .busy, s) else (.ok (), s) := by
  unfold requireIdleDisplay
  rw [outcome_bind, outcome_get]
  dsimp only
  split <;> rfl

/-- A display that is not being dispatched goes away. -/
def Display.leaves (s : State) (name : String) (left : Names Display → Display → Names Display) :
    Except StepError Payload × State :=
  match s.displays.find? name with
  | none => (.error (.noSuchName name), s)
  | some d =>
    if s.dispatching.any (·.1 == name) then (.error .busy, s)
    else
      let after := d.destroy.run s
      (.ok .null, { after.2 with displays := left after.2.displays after.1 })

theorem outcome_destroyDisplay (patience : Nat) (act : Act) (s : State) (name : String) :
    s.outcome (execute patience act (.destroyDisplay name)) =
      Display.leaves s name fun displays d => displays.insert name d := by
  unfold Display.leaves
  rw [execute, outcome_bind, outcome_named]
  cases s.displays.find? name with
  | none => rfl
  | some d =>
    dsimp only
    rw [outcome_bind, outcome_requireIdleDisplay]
    by_cases busy : s.dispatching.any (·.1 == name) = true
    · rw [if_pos busy, if_pos busy]
    · rw [if_neg busy, if_neg busy]
      rfl

theorem outcome_dropDisplay (patience : Nat) (act : Act) (s : State) (name : String) :
    s.outcome (execute patience act (.dropDisplay name)) =
      Display.leaves s name fun displays _ => displays.erase name := by
  unfold Display.leaves
  rw [execute, outcome_bind, outcome_named]
  cases s.displays.find? name with
  | none => rfl
  | some d =>
    dsimp only
    rw [outcome_bind, outcome_requireIdleDisplay]
    by_cases busy : s.dispatching.any (·.1 == name) = true
    · rw [if_pos busy, if_pos busy]
    · rw [if_neg busy, if_neg busy]
      rfl

theorem Display.leaves_leads {m : StepM Payload} {name : String}
    {left : Names Display → Display → Names Display}
    (outcome : ∀ s : State, s.outcome m = Display.leaves s name left)
    (others : ∀ displays d other, other ≠ name →
      (left displays d).find? other = displays.find? other)
    (gone : ∀ displays d d' k, d.connection = none → (left displays d).find? name = some d' →
      d'.connection ≠ some k) : StepM.Leads told m := by
  intro s
  rw [outcome, Display.leaves]
  cases found : s.displays.find? name with
  | none => exact ⟨_, .refl⟩
  | some d =>
    dsimp only
    split
    · exact ⟨_, .refl⟩
    · have left : (d.destroy.run s).1.connection = none := by
        cases connected : d.connection with
        | none => rw [display_destroy_again connected]
        | some k => rw [display_destroy_run connected]
      refine Display.destroy_follows found (fun other apart => ?_) fun d' k => gone _ _ d' k left
      exact (others _ _ other apart).trans (by rw [(d.destroy_displays s).1])

theorem destroyDisplay_leads (patience : Nat) (act : Act) (name : String) :
    StepM.Leads told (execute patience act (.destroyDisplay name)) := by
  refine Display.leaves_leads (fun s => outcome_destroyDisplay patience act s name) ?_ ?_
  · intro displays d other apart
    rw [Names.find?_insert, if_neg apart]
  · intro displays d d' k unconnected found
    rw [Names.find?_insert, if_pos rfl] at found
    cases found
    rw [unconnected]
    exact nofun

theorem dropDisplay_leads (patience : Nat) (act : Act) (name : String) :
    StepM.Leads told (execute patience act (.dropDisplay name)) := by
  refine Display.leaves_leads (fun s => outcome_dropDisplay patience act s name) ?_ ?_
  · intro displays d other apart
    rw [Names.find?_erase, if_neg apart]
  · intro displays d d' k _ found
    rw [Names.find?_erase, if_pos rfl] at found
    cases found

/-- Scripts move a session on along courses. -/
def courseScripts : ScriptRelation where
  toCallRelation := courseCalls fun _ => False
  Admits act := act.Leads
  registry _ := ⟨_, .idle rfl rfl rfl rfl⟩
  callback {s} _ := ⟨_, callback_follows s⟩
  attaches notes _ _ moved := attach_follows notes moved
  onGlobal {s} cell _ _ := (modifyRegistry_leads cell _).leads s
  onGlobalRemove {s} cell _ _ := (modifyRegistry_leads cell _).leads s
  onDone {s} cell _ _ same := (modifyCallback_leads cell same).leads s
  opens {s} name _ := openDisplay_leads name s
  destroys {s} patience act name _ := destroyDisplay_leads patience act name s
  drops {s} patience act name _ := dropDisplay_leads patience act name s
  asks _ _ := ⟨_, popped_follows _ _ _⟩
  delivers leads _ handed := delivers_leads leads handed

theorem execute_leads (patience : Nat) (leads : act.Leads) (step : Step) :
    StepM.Leads (fun _ => False) (execute patience act step) :=
  (execute_respects (R := courseScripts) patience leads step).leads

theorem runStep_leads (patience : Nat) (leads : act.Leads) (step : Step) :
    SessionM.Respects (courseCalls fun _ => False) (runStep patience act step) :=
  SessionM.respects_get.bind fun _ => (modifyFrame_leads fun _ => {}).bind fun _ =>
    (execute_respects (R := courseScripts) patience leads step).run.bind fun _ =>
      SessionM.respects_get.bind fun _ => (modifyFrame_leads fun _ => _).bind fun _ =>
        SessionM.respects_pure _

/-- A session that runs a script moves on along courses of its connections. -/
theorem runSteps_leads (patience depth : Nat) : (runSteps patience depth).Leads := by
  induction depth with
  -- Too deep for handlers to call handlers: nothing is run any more.
  | zero => exact fun _ => (SessionM.respects_pure _).leads
  | succ depth ih =>
    exact fun steps => (SessionM.respects_mapM (runStep_leads patience ih) steps).leads

/-! ## Sessions at every moment -/

/-- What holds of a session at every moment of every script, inside handlers too: its connections
    have come from the beginning by actions, callbacks that are attached have handlers, and open
    connections have displays. -/
structure State.Sound (s : State) : Prop where
  reached : ∀ k, ∃ past, s.connectionAt k = (Connection.initial s.protocol).run past
  cells : ∀ {k : ConnectionRef} {id : ObjectId} {entry : Client.Entry ObjectData} {cell : Nat},
    (s.connectionAt k).objects.live? id = some entry → entry.data = some (.callback cell) →
      cell < s.callbacks.length
  displayed : s.Displayed

theorem State.Follows.sound {s s' : State} {fresh : Nat}
    {course : ConnectionRef → List (Action ObjectData)} (follows : s.Follows told fresh course s')
    (sound : s.Sound) : s'.Sound where
  reached k := by
    obtain ⟨past, reached⟩ := sound.reached k
    refine ⟨past ++ course k, ?_⟩
    rw [follows.connections, reached, follows.protocol, Connection.run_append]
  cells := by
    intro k id entry cell live data
    rw [follows.connections] at live
    obtain ⟨before, lived, _, same⟩ | ⟨o, interface, handlers, attached, _⟩ :=
      Connection.run_data live data
    · exact Nat.lt_of_lt_of_le (sound.cells lived same) follows.callbacks
    · exact (follows.attached attached).2
  displayed := follows.displayed sound.displayed

theorem SessionM.Leads.sound {α : Type} {m : SessionM α} (leads : SessionM.Leads told m)
    {s : State} (sound : s.Sound) : (m.run s).2.Sound := by
  obtain ⟨_, follows⟩ := leads s
  exact follows.sound sound

theorem State.start_sound (protocol : Protocol) : (State.start protocol).Sound := by
  have blank : State.Sound { protocol } :=
    { reached := fun _ => ⟨[], rfl⟩
      cells := by
        intro k id entry cell live data
        have found := (Client.ObjectTable.live?_some.1 live).1
        rw [connectionAt_of_le (Nat.zero_le k), Connection.initial,
          Client.ObjectTable.get?_initial] at found
        split at found <;> cases found
        cases data
      displayed := ⟨nofun, nofun⟩ }
  have opens : SessionM.Leads (fun _ => False) (openDisplay "d") := openDisplay_leads "d"
  have idle : ((openDisplay "d").run { protocol }).2.Follows (fun _ => False) 0 (fun _ => [])
    (State.start protocol) := .idle rfl rfl rfl rfl
  exact idle.sound (opens.sound blank)

theorem runSteps_sound (patience depth : Nat) (steps : List Step) {s : State} (sound : s.Sound) :
    ((runSteps patience depth steps).run s).2.Sound :=
  (runSteps_leads patience depth steps).sound sound

end Wayland.Session
