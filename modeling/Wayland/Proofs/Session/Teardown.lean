import Wayland.Proofs.Client.QueueNumbers
import Wayland.Proofs.Session.Calls
import Wayland.Proofs.Session.Scripts

/-! # What is left once a display is gone

A display goes away when it is destroyed, when it is dropped, and when another one takes its name.
Its connection is closed then and forgets everything.  Others may still hold the connection, and
proxies, queues and read intents of it may be used in any order afterwards; or nothing keeps it
alive any more.  Either way nothing comes of it: `Connection.Inert` is kept by every step of a
connection, hence by every later course of it, and whatever an application can ask of an inert
connection has an answer of its own below.
-/

namespace Wayland.Client

variable {δ : Type}

/-- A closed connection that has forgotten its objects and queues. -/
structure Connection.Inert (c : Connection δ) : Prop where
  closed : c.closed = true
  objects : ∀ id, c.objects.get? id = none
  queues : ∀ queue, c.queues.get? queue = none

/-- A step that puts nothing into the outbox, sends nothing and hands out nothing. -/
structure Step.Silent (s : Step δ) : Prop where
  outbox : s.after.outbox = s.before.outbox
  transfers : s.report.transfers = []
  delivery : s.delivery? = none

theorem Step.delivery?_of_closed {s : Step δ} (closed : s.before.closed = true) :
    s.delivery? = none := by
  unfold delivery?
  split
  · simp [Connection.nextEvent, Connection.check_of_closed closed]
  · rfl

theorem Step.Effect.inert {s : Step δ} (effect : s.Effect) (inert : s.before.Inert) :
    s.after.Inert ∧ s.Silent := by
  have closed := (effect.of_closed inert.closed).1
  have objects := effect.empty_of_closed (fun _ => inert.objects) closed
  have delivery := delivery?_of_closed inert.closed
  have unusable {P : Prop} (usable : s.before.check = .ok ()) : P := by
    rw [Connection.check_of_closed inert.closed] at usable
    cases usable
  cases effect with
  | create usable | adopt usable | request usable | flush usable | attach usable
  | attachAgain usable | setQueue usable | createQueue usable | prepareRead usable | next usable =>
    exact unusable usable
  | @read c outcomes _ gate =>
    -- A last reader finds the connection closed before it looks at the socket.
    have round := Connection.readRound_of_closed (c := { c with gate }) inert.closed outcomes
    have kept : ({ c with gate }.readRound outcomes).value.2.2 =
      { c with gate := gate.finishRound } := congrArg (·.value.2.2) round
    refine ⟨⟨closed, objects, fun queue => ?_⟩, ?_, rfl, delivery⟩
    · rw [kept]
      exact inert.queues queue
    · rw [kept]
  | @destroyQueue c gone =>
    refine ⟨⟨closed, objects, fun queue => ?_⟩, rfl, rfl, delivery⟩
    rw [EventQueues.get?_remove, inert.queues]
    exact ite_self none
  | close isOpen => exact absurd (isOpen.symm.trans inert.closed) nofun
  | _ => exact ⟨⟨closed, objects, inert.queues⟩, rfl, rfl, delivery⟩

/-- Only closing closes an open connection. -/
theorem Step.Effect.inert_of_closes {s : Step δ} (effect : s.Effect)
    (isOpen : s.before.closed = false) (closed : s.after.closed = true) : s.after.Inert := by
  cases effect with
  | @close c =>
    exact ⟨rfl, fun id => by simp [ObjectTable.clear, ObjectTable.get?], fun queue => by
      rw [EventQueues.get?_clear]⟩
  | @read c outcomes _ gate =>
    rw [(Connection.readRound_kept { c with gate } outcomes).closed] at closed
    exact absurd (isOpen.symm.trans closed) Bool.false_ne_true
  | _ => exact absurd (isOpen.symm.trans closed) Bool.false_ne_true

namespace Connection

theorem Inert.run {c : Connection δ} (inert : c.Inert) (actions : List (Action δ)) :
    (c.run actions).Inert ∧ (c.run actions).outbox = c.outbox ∧
      ∀ s ∈ c.trace actions, s.Silent := by
  induction actions generalizing c with
  | nil => exact ⟨inert, rfl, by simp [trace]⟩
  | cons action actions ih =>
    obtain ⟨next, silent⟩ := (c.step_effect action).inert inert
    obtain ⟨last, outbox, later⟩ := ih next
    refine ⟨last, outbox.trans silent.outbox, fun s mem => ?_⟩
    obtain rfl | mem := List.mem_cons.1 mem
    · exact silent
    · exact later s mem

/-- Whatever has closed a connection, it has forgotten everything. -/
theorem inert_of_closed (protocol : Protocol) (actions : List (Action δ))
    (closed : ((initial protocol : Connection δ).run actions).closed = true) :
    ((initial protocol : Connection δ).run actions).Inert := by
  refine history_invariant (I := fun _ c => c.closed = true → c.Inert) ?_ actions nofun closed
  intro _ c action inert closed
  cases before : c.closed with
  | true => exact ((c.step_effect action).inert (inert before)).1
  | false => exact (c.step_effect action).inert_of_closes before closed

end Connection

end Wayland.Client

namespace Wayland.Session

open Client (Connection ClientError)

variable {s : State} {k : ConnectionRef}

/-! ## What an application finds -/

section

variable (inert : (s.channel k).connection.Inert)

include inert

theorem valid?_of_inert {p : Proxy} (of : ∀ h, p.handle = some h → h.connection = k) :
    s.valid? p = none := by
  unfold State.valid?
  cases held : p.handle with
  | none => rfl
  | some h =>
    obtain rfl := of h held
    simp [Connection.isValid, inert.closed]

theorem attached?_of_inert {p : Proxy} (of : ∀ h, p.handle = some h → h.connection = k) :
    s.attached? p = none := by
  unfold State.attached?
  cases held : p.handle with
  | none => rfl
  | some h =>
    obtain rfl := of h held
    have missing : (s.channel h.connection).connection.current? h.object = none := by
      simp [Connection.current?, Client.ObjectTable.current?, Client.ObjectTable.live?,
        inert.objects]
    simp [missing]

theorem queueInfo_of_inert {q : EventQueue} (of : q.connection = k) :
    s.queueInfo q = (false, 0) := by
  subst of
  unfold State.queueInfo
  split
  next id _ =>
    simp [Client.EventQueues.contains, Client.EventQueues.pending, inert.queues]
  · rfl

theorem live?_of_inert (id : ObjectId) : (s.channel k).connection.objects.live? id = none := by
  simp [Client.ObjectTable.live?, inert.objects]

theorem objectContext?_of_inert (id : Option ObjectId) :
    (s.channel k).connection.objectContext? id = none := by
  cases id with
  | none => rfl
  | some id => simp [Connection.objectContext?, live?_of_inert inert]

/-- Reading fails, whether the reader is the last one, has to wait for others or had not declared
    its intention. -/
theorem readEvents_of_inert :
    ∃ cause, (s.outcome (readEvents k)).1 = .error cause := by
  have result : (s.channel k).readEvents.value.1 = some (.error .disconnected) := by
    generalize s.channel k = channel at inert
    have refuses := Connection.check_of_closed inert.closed
    simp only [Channel.readEvents, Connection.readEvents]
    cases channel.connection.gate.withdraw with
    | mk withdrawal gate =>
      cases withdrawal with
      | last =>
        simp [Connection.readRound_of_closed (c := { channel.connection with gate }) inert.closed]
      | wait serial => simp [Connection.waitOver?, Connection.check, inert.closed, Except.map]
      | unpaired => simp [Connection.check, inert.closed, Except.map]
  unfold readEvents
  rw [outcome_bind, outcome_lift, onChannel_run, result]
  exact ⟨_, rfl⟩

end

/-- A call through a display that has no connection any more. -/
def Command.Adrift : Command → Prop
  | .prepareRead d _ | .dispatchPending d _ | .dispatch d _ | .roundtrip d _ | .sync d
  | .getRegistry d => d.connection = none
  | _ => False

theorem Command.adrift_fails (patience : Nat) (act : Act) {command : Command}
    (adrift : command.Adrift) :
    ∃ cause, s.outcome (command.perform patience act) = (.error cause, s) := by
  have live {d : Display} (gone : d.connection = none) :
      s.outcome d.live = (.error (.client .disconnected), s) := by
    unfold Display.live
    rw [gone]
    rfl
  have taskQueue {d : Display} (gone : d.connection = none) (queue : Option EventQueue) :
      s.outcome (d.taskQueue queue) = (.error (.client .disconnected), s) := by
    cases queue <;> exact outcome_bind_error (live gone)
  cases command with
  | prepareRead d queue | dispatchPending d queue | dispatch d queue | roundtrip d queue =>
    exact ⟨_, outcome_bind_error (taskQueue adrift queue)⟩
  | sync d | getRegistry d =>
    exact ⟨_, outcome_bind_error (outcome_bind_error (live adrift))⟩
  | _ => exact adrift.elim

/-! ## Displays that go away -/

/-- The display with a name goes away: it is destroyed or dropped while it is not being dispatched,
    or another one takes its name. -/
def Step.TearsDown (s : State) (name : String) (step : Step) : Prop :=
  (step = .destroyDisplay name ∨ step = .dropDisplay name) ∧
      s.dispatching.any (·.1 == name) = false ∨
    step = .connect name

theorem Step.TearsDown.closes {name : String} {d : Display} {step : Step} {patience : Nat}
    {act : Act} (tears : step.TearsDown s name) (found : s.displays.find? name = some d)
    (connected : d.connection = some k) (known : k < s.channels.length) :
    ∃ gone, s.outcome (execute patience act step) = (.ok .null, gone) ∧
      (gone.connectionAt k).closed = true := by
  have left (displays : Names Display) :
      (State.connectionAt { (d.destroy.run s).2 with displays } k).closed = true :=
    d.destroy_closes connected known
  obtain ⟨destroyed | dropped, idle⟩ | replaced := tears
  · rw [destroyed, outcome_destroyDisplay, Display.leaves, found]
    dsimp only
    rw [if_neg (by simp [idle])]
    exact ⟨_, rfl, left _⟩
  · rw [dropped, outcome_dropDisplay, Display.leaves, found]
    dsimp only
    rw [if_neg (by simp [idle])]
    exact ⟨_, rfl, left _⟩
  · rw [replaced]
    obtain ⟨_, _, _, _, closes⟩ := openDisplay_effect (fun _ => False) s name
    exact ⟨((openDisplay name).run s).2, rfl, closes d k found connected known⟩

/-- A display goes away, at any moment of any session.  Then whatever scripts run afterwards, on
    whatever is left of its connection or on anything else, and whether or not somebody holds the
    connection: it stays closed and empty, and nothing is put into its outbox, sent or handed out
    meanwhile; its proxies stand for nothing and its queues do not exist; every call on it fails
    and leaves the whole session as it is, so no handler runs; and reading from it fails. -/
theorem teardown_is_final (sound : s.Sound) {name : String} {d : Display} {k : ConnectionRef}
    (found : s.displays.find? name = some d) (connected : d.connection = some k) {step : Step}
    (tears : step.TearsDown s name) (patience depth : Nat) :
    ∃ gone, s.outcome (execute patience (runSteps patience depth) step) = (.ok .null, gone) ∧
      ∀ (deep : Nat) (later : List Step),
        let before := (gone.channel k).connection
        let t := ((runSteps patience deep later).run gone).2
        let c := (t.channel k).connection
        c.closed = true ∧ (∀ id, c.objects.get? id = none) ∧
          (∀ queue, c.queues.get? queue = none) ∧
        (∃ course, c = before.run course ∧ c.outbox = before.outbox ∧
          ∀ step ∈ before.trace course, step.report.transfers = [] ∧ step.delivery? = none) ∧
        (∀ p : Proxy, (∀ h, p.handle = some h → h.connection = k) →
          (t.info p).valid = false ∧ (t.info p).id = 0 ∧ (t.info p).interface = none ∧
            (t.info p).version = none ∧ t.attached? p = none) ∧
        (∀ q : EventQueue, q.connection = k → t.queueInfo q = (false, 0)) ∧
        (∀ id, c.objects.live? id = none) ∧ (∀ id, c.objectContext? id = none) ∧
        (∀ act command, Command.On k command ∨ command.Adrift →
          ∃ cause, t.outcome (command.perform patience act) = (.error cause, t)) ∧
        ∃ cause, (t.outcome (readEvents k)).1 = .error cause := by
  have known := (sound.displayed.placed found connected).1
  obtain ⟨gone, outcome, closed⟩ : ∃ gone,
      s.outcome (execute patience (runSteps patience depth) step) = (.ok .null, gone) ∧
        (gone.connectionAt k).closed = true := tears.closes found connected known
  refine ⟨gone, outcome, fun deep later => ?_⟩
  intro before t c
  -- What the step has left is inert, since the session had come by actions from the beginning.
  obtain ⟨_, torn⟩ := execute_leads patience (runSteps_leads patience depth) step s
  rw [outcome] at torn
  have there : k < gone.channels.length := Nat.lt_of_lt_of_le known torn.channels
  obtain ⟨past, reached⟩ := (torn.sound sound).reached k
  have start : before.Inert := by
    unfold before
    rw [← connectionAt_of_lt there, reached]
    exact Connection.inert_of_closed _ _ (reached ▸ closed)
  -- The scripts that follow take it along some course.
  obtain ⟨course, follows⟩ := runSteps_leads patience deep later gone
  have moved : c = before.run (course k) := by
    unfold c before
    rw [← connectionAt_of_lt there, ← follows.connections,
      ← connectionAt_of_lt (Nat.lt_of_lt_of_le there follows.channels)]
  obtain ⟨inert, outbox, silent⟩ := start.run (course k)
  rw [← moved] at inert outbox
  have refuses : t.Refuses k .disconnected := Connection.check_of_closed inert.closed
  refine ⟨inert.closed, inert.objects, inert.queues, ⟨course k, moved, outbox, ?_⟩, ?_, ?_,
    live?_of_inert inert, objectContext?_of_inert inert, ?_, readEvents_of_inert inert⟩
  · exact fun step mem => ⟨(silent step mem).transfers, (silent step mem).delivery⟩
  · intro p of
    simp [State.info, valid?_of_inert inert of, attached?_of_inert inert of]
  · exact fun q of => queueInfo_of_inert inert of
  · rintro act command (on | adrift)
    · obtain ⟨cause, declined, _⟩ := command.refused refuses patience act on
      exact ⟨cause, declined⟩
    · exact Command.adrift_fails patience act adrift

/-- A session with a queue, a registry and a read intent, whose connection somebody holds. -/
def lingering : State :=
  let steps : List Step := [.createQueue "d" "q", .getRegistry "d" "r", .prepareRead "d" none "i",
    .hold "d" "c"]
  ((runSteps 9 1 steps).run (State.start ⟨[]⟩)).2

/-- The connection of the session outlives its display until it is let go; it is of no use either
    way. -/
theorem teardown_is_final_held :
    let gone := (lingering.outcome (execute 9 (runSteps 9 1) (.destroyDisplay "d"))).2
    lingering.queueInfo ⟨0, some 1⟩ = (true, 0) ∧ gone.keeps 0 = true ∧
      ((runSteps 9 1 [.release "c", .readEvents "i"]).run gone).2.keeps 0 = false ∧
      ∀ later,
        let t := ((runSteps 9 1 later).run gone).2
        (t.channel 0).connection.closed = true ∧ t.queueInfo ⟨0, some 1⟩ = (false, 0) ∧
          ∃ cause, t.outcome ((Command.flush 0).perform 9 (runSteps 9 1)) = (.error cause, t) := by
  intro gone
  refine ⟨by decide +kernel, by decide +kernel, by decide +kernel, fun later => ?_⟩
  have sound : lingering.Sound := runSteps_sound 9 1 _ (State.start_sound ⟨[]⟩)
  obtain ⟨d, found, connected⟩ : ∃ d, lingering.displays.find? "d" = some d ∧
      d.connection = some 0 := by
    refine ⟨(lingering.displays.find? "d").get (by decide +kernel), by simp, by decide +kernel⟩
  have tears : Step.TearsDown lingering "d" (.destroyDisplay "d") :=
    .inl ⟨.inl rfl, by decide +kernel⟩
  obtain ⟨left, outcome, final⟩ := teardown_is_final sound found connected tears 9 1
  obtain rfl : gone = left := congrArg Prod.snd outcome
  obtain ⟨closed, _, _, _, _, queues, _, _, calls, _⟩ := final 1 later
  exact ⟨closed, queues ⟨0, some 1⟩ rfl, calls _ (.flush 0) (.inl rfl)⟩

end Wayland.Session
