import Wayland.Proofs.Client.EventOrder
import Wayland.Proofs.Session.Relations

/-! # Relations that scripts respect

Handlers run inside dispatches and may call anything, dispatches included.  A relation between
states of a session that is respected by one round of a dispatch, whenever the steps of handlers
respect it, is respected by whole scripts (`ScriptRelation`).  This is by induction on how deep
handlers call handlers.
-/

namespace Wayland.Session

open Client (Action Connection Delivery Logged Note ClientError ObjectRef QueueId)

/-- The session once a queue was asked for its next event. -/
def State.popped (s : State) (k : ConnectionRef) (queue : QueueId) : State :=
  let c := (s.channel k).connection
  s.putChannel k { s.channel k with connection := (c.step (.next queue)).after }
    (c.nextEvent queue).notes

/-- What a queue hands out next. -/
def State.handsOut (s : State) (k : ConnectionRef) (queue : QueueId) :
    Option (Delivery ObjectData) := ((s.channel k).connection.step (.next queue)).delivery?

/-- A relation that is respected by everything that steps do.  It is up to the relation which ways
    to run the steps of handlers it admits. -/
structure ScriptRelation extends CallRelation where
  Admits : Act → Prop
  /-- There is a place for the handlers of one more registry. -/
  registry {s : State} : Good s → Rel s { s with registries := s.registries ++ [{}] }
  callback {s : State} : Good s → Rel s { s with callbacks := s.callbacks ++ [{}] }
  /-- The handlers of a callback are attached as soon as there is a place for them. -/
  attaches {s : State} {k : ConnectionRef} {channel : Channel} {o : ObjectRef}
    {interface : Interface} (notes : List Note) : Good s → Knows s (.object ⟨k, o⟩) →
    channel.connection = ((s.channel k).connection.step (.attach o interface
        Protocol.Core.callback.events.length (.callback s.callbacks.length))).after →
      Rel s { s.putChannel k channel notes with callbacks := s.callbacks ++ [{}] }
  onGlobal {s : State} (cell : Nat) (handler : Handler) : Good s →
    Rel s ((modifyRegistry cell fun r => { r with global := some handler }).run s).2
  onGlobalRemove {s : State} (cell : Nat) (handler : Handler) : Good s →
    Rel s ((modifyRegistry cell fun r => { r with globalRemove := some handler }).run s).2
  /-- Only an event tells a roundtrip that it is over. -/
  onDone {s : State} (cell : Nat) {f : CallbackHandlers → CallbackHandlers} : Good s →
    (∀ c, (f c).signalled = c.signalled) → Rel s ((modifyCallback cell f).run s).2
  opens {s : State} (name : String) : Good s → Rel s ((openDisplay name).run s).2
  destroys {s : State} (patience : Nat) (act : Act) (name : String) : Good s →
    Rel s (s.outcome (execute patience act (.destroyDisplay name))).2
  drops {s : State} (patience : Nat) (act : Act) (name : String) : Good s →
    Rel s (s.outcome (execute patience act (.dropDisplay name))).2
  asks {s : State} {k : ConnectionRef} {queue : QueueId} : Good s →
    s.handsOut k queue = none → Rel s (s.popped k queue)
  delivers {act : Act} {s : State} {k : ConnectionRef} {queue : QueueId} {d : Delivery ObjectData} :
    Admits act → Good s → s.handsOut k queue = some d →
      Rel s ((deliver act k d).run (s.popped k queue)).2

instance : Coe ScriptRelation CallRelation := ⟨ScriptRelation.toCallRelation⟩

variable {R : ScriptRelation} {act : Act}

/-- A change that the relation allows. -/
theorem SessionM.respects_of_rel {α : Type} {m : SessionM α}
    (related : ∀ s, R.Good s → R.Rel s (m.run s).2) : SessionM.Respects R m :=
  fun s good _ => ⟨related s good, R.all_nil⟩

theorem StepM.respects_of_rel {α : Type} {m : StepM α}
    (related : ∀ s, R.Good s → R.Rel s (s.outcome m).2) : StepM.Respects R m :=
  fun s good _ => ⟨related s good, fun _ _ => R.all_nil⟩

/-! ## New objects -/

theorem newRegistry_hands (p : Proxy) :
    SessionM.Hands R p.means (newRegistry p) (·.proxy.means) := by
  have counts : SessionM.Hands R p.means (get : SessionM State) fun _ => [] :=
    SessionM.respects_get.weaken (List.nil_subset _)
  have placed : SessionM.Hands R p.means
      (modify fun s => { s with registries := s.registries ++ [{}] }) fun _ => [] :=
    (SessionM.respects_of_rel fun _ => R.registry).weaken (List.nil_subset _)
  exact counts.bind fun s => placed.bind fun _ =>
    (attachHandlers_hands p _ rfl (by simp)).bind fun _ => SessionM.hands_pure (List.Subset.refl _)

theorem newCallback_hands (p : Proxy) :
    SessionM.Hands R p.means (newCallback p) (·.1.proxy.means) := by
  intro s good known
  -- The new place is the one that the attached data names, so the two go together.
  let placed : State := { s with callbacks := s.callbacks ++ [{}] }
  obtain ⟨k, channel, notes, idle, moved⟩ :=
    attachHandlers_cases placed p Protocol.Core.callback (.callback s.callbacks.length)
  have attached : R.Rel s (placed.putChannel k channel notes) := by
    obtain unmoved | ⟨o, held, taken⟩ := moved
    · have there : R.Rel s placed := R.callback good
      exact R.trans there (R.moves notes (R.stays good there) R.all_nil (.inl unmoved))
    · exact R.attaches notes good (known _ (by simp [Proxy.means, held])) taken
  have related : R.Rel s ((newCallback p).run s).2 :=
    R.trans attached (R.idle (R.stays good attached) R.all_nil idle)
  exact ⟨related, fun x mem => R.keeps good related (known x mem)⟩

theorem modifyCallback_respects (cell : Nat) {f : CallbackHandlers → CallbackHandlers}
    (same : ∀ c, (f c).signalled = c.signalled) :
    SessionM.Respects R (modifyCallback cell f) :=
  SessionM.respects_of_rel fun _ good => R.onDone cell good same

theorem wrapBound_hands (interface : Interface) (listener : Option Listener) (p : Proxy) :
    SessionM.Hands R p.means (wrapBound interface listener p) (·.proxy.means) := by
  unfold wrapBound
  split
  · exact newRegistry_hands p
  split
  · exact (newCallback_hands p).next fun _ => SessionM.hands_pure (List.Subset.refl _)
  split
  · exact (p.listen_hands _ _).run.bind fun _ => SessionM.hands_pure (List.Subset.refl _)
  · exact SessionM.hands_pure (List.Subset.refl _)

theorem bindGlobal_hands (registry : Proxy) (interface : Interface) (name version : UInt32)
    (listener : Option Listener) :
    StepM.Hands R [.table interface] (bindGlobal registry interface name version listener)
      (·.proxy.means) :=
  (registry.createVersioned_hands _ _).next fun p =>
    (StepM.respects_get.weaken (List.nil_subset _)).bind fun _ =>
      (StepM.hands_lift (wrapBound_hands interface listener p)).next fun _ =>
        announce_hands _ _ _ _

section

variable (d : Display)

theorem Display.getRegistry_hands : StepM.Hands R [] d.getRegistry (·.proxy.means) := by
  refine d.live_respects.bind fun _ => (d.proxy.create_hands _).core ?_ |>.next fun p =>
    (StepM.respects_get.weaken (List.nil_subset _)).bind fun _ =>
      (StepM.hands_lift (newRegistry_hands p)).next fun _ => announce_hands _ _ _ _
  simp [Protocol.Core.tables]

theorem Display.sync_hands : StepM.Hands R [] d.sync (·.proxy.means) := by
  refine d.live_respects.bind fun _ => (d.proxy.create_hands _).core ?_ |>.next fun p =>
    (StepM.respects_get.weaken (List.nil_subset _)).bind fun _ =>
      (StepM.hands_lift (newCallback_hands p)).next fun _ => announce_hands _ _ _ _
  simp [Protocol.Core.tables]

end

/-! ## Dispatching -/

theorem handsOut_eq (s : State) (k : ConnectionRef) (queue : QueueId) :
    s.handsOut k queue = ((s.channel k).connection.nextEvent queue).value.1.toOption.join := by
  unfold State.handsOut Client.Step.delivery? Connection.step
  dsimp only
  cases ((s.channel k).connection.nextEvent queue).value.1 with
  | error cause => rfl
  | ok next => cases next <;> rfl

/-- One round of a dispatch: the queue is asked for its next event, and what it hands out is
    delivered. -/
theorem dispatchFrom_succ (act : Act) (k : ConnectionRef) (queue : QueueId) (fuel count : Nat)
    (s : State) :
    let asked := ((s.channel k).connection.nextEvent queue).value.1
    let popped := s.popped k queue
    let outcome := s.outcome (dispatchFrom act k queue (fuel + 1) count)
    (∃ cause, s.handsOut k queue = none ∧ outcome = (.error (.client cause), popped)) ∨
      s.handsOut k queue = none ∧ asked = .ok none ∧ outcome = (.ok count, popped) ∨
      ∃ d, s.handsOut k queue = some d ∧
        outcome = ((deliver act k d).run popped).2.outcome
          (dispatchFrom act k queue fuel (count + 1)) := by
  intro asked popped outcome
  have ran : (onConnection k (·.nextEvent queue)).run s = (asked, popped) := by
    have after : ((s.channel k).connection.step (.next queue)).after =
        ((s.channel k).connection.nextEvent queue).value.2 := by
      simp [Connection.step, Connection.perform]
    rw [onConnection_run]
    simp only [popped, State.popped, after]
    rfl
  have lifted : s.outcome (monadLift (onConnection k (·.nextEvent queue))) =
      (.ok asked, popped) := by
    rw [outcome_lift, ran]
  unfold outcome
  rw [dispatchFrom, outcome_bind_ok lifted, handsOut_eq]
  cases handed : asked with
  | error cause => exact .inl ⟨cause, congrArg (·.toOption.join) handed, rfl⟩
  | ok next =>
    have hands : asked.toOption.join = next := congrArg (·.toOption.join) handed
    cases next with
    | none => exact .inr (.inl ⟨hands, rfl, rfl⟩)
    | some d => exact .inr (.inr ⟨d, hands, rfl⟩)

theorem dispatchFrom_respects (acts : R.Admits act) (k : ConnectionRef) (queue : QueueId)
    (fuel count : Nat) :
    StepM.Respects R (dispatchFrom act k queue fuel count) := by
  refine StepM.respects_of_rel fun s good => ?_
  induction fuel generalizing count s with
  | zero => exact R.refl good
  | succ fuel ih =>
    obtain ⟨_, nothing, outcome⟩ | ⟨nothing, _, outcome⟩ | ⟨d, handed, outcome⟩ :=
      dispatchFrom_succ act k queue fuel count s
    · rw [outcome]
      exact R.asks good nothing
    · rw [outcome]
      exact R.asks good nothing
    · -- The handler may have dispatched the same queue; the next round asks it again.
      have delivered : R.Rel s ((deliver act k d).run (s.popped k queue)).2 :=
        R.delivers acts good handed
      rw [outcome]
      exact R.trans delivered (ih (count + 1) _ (R.stays good delivered))

variable (patience : Nat)

theorem dispatchPending_respects (acts : R.Admits act) (k : ConnectionRef) (queue : QueueId) :
    StepM.Respects R (dispatchPending patience act k queue) :=
  dispatchFrom_respects acts k queue _ _

section

variable (k : ConnectionRef)

theorem dispatchQueue_respects (acts : R.Admits act) (queue : QueueId) :
    StepM.Respects R (dispatchQueue patience act k queue) := by
  refine (prepareAndFlush_respects k patience queue false).observing.bind fun prepared => ?_
  split
  · exact dispatchPending_respects patience acts k queue
  · exact StepM.hands_throw _
  · exact (waitReadable_respects k _).bind fun _ => (readEvents_respects k).bind fun _ =>
      dispatchPending_respects patience acts k queue

theorem dispatchUntil_respects (acts : R.Admits act) (queue : QueueId) (cell fuel count : Nat) :
    StepM.Respects R (dispatchUntil patience act k queue cell fuel count) := by
  induction fuel generalizing count with
  | zero => exact StepM.hands_throw _
  | succ fuel ih =>
    refine StepM.respects_get.bind fun s => ?_
    split
    · exact StepM.respects_pure _
    · exact (dispatchQueue_respects patience k acts queue).bind fun _ => ih _

end

section

variable (d : Display)

theorem Display.roundtrip_respects (acts : R.Admits act) (queue : QueueId) :
    StepM.Respects R (d.roundtrip patience act queue) := by
  refine d.live_respects.bind fun k => (d.proxy.create_hands _).core ?_ |>.next fun p =>
    .bind ((p.setQueueId_respects queue).observing.weaken (List.nil_subset _)) fun placed => ?_
  · simp [Protocol.Core.tables]
  cases placed with
  | error cause =>
    exact .bind ((StepM.hands_lift p.destroy_respects).weaken (List.nil_subset _)) fun _ =>
      StepM.hands_throw _
  | ok _ =>
    refine .bind (StepM.respects_get.weaken (List.nil_subset _)) fun _ =>
      (StepM.hands_lift (newCallback_hands p)).next fun created => ?_
    obtain ⟨callback, cell⟩ := created
    refine .bind (StepM.Hands.weaken (StepM.hands_lift
        (modifyCallback_respects cell fun _ => rfl)) (List.nil_subset _)) fun _ =>
      (announce_hands _ _ _ _).plain.next fun _ =>
        (dispatchUntil_respects patience k acts queue cell _ _).observing.bind fun dispatched =>
          (StepM.hands_lift callback.drop_respects).bind fun _ => ?_
    cases dispatched with
    | ok count => exact StepM.respects_pure _
    | error cause => exact StepM.hands_throw _

theorem Task.start_respects (acts : R.Admits act) (queue : Option EventQueue) :
    SessionM.Respects R (Task.start patience act d queue) := by
  refine .bind (StepM.respects_run ?_) fun started => ?_
  · refine d.live_respects.bind fun k => (d.taskQueue_respects queue).bind fun id =>
      (dispatchPending_respects patience acts k id).bind fun count => ?_
    split
    · exact (prepareAndFlush_respects k patience id true).bind fun _ => StepM.respects_pure _
    · exact StepM.respects_pure _
  · cases started <;> exact SessionM.respects_pure _

theorem runTask_respects (acts : R.Admits act) (k : ConnectionRef) (queue : Option EventQueue)
    (fuel : Nat) (task : Task) :
    StepM.Respects R (runTask patience act k d queue fuel task) := by
  induction fuel generalizing task with
  | zero => exact StepM.hands_throw _
  | succ fuel ih =>
    unfold runTask
    split
    · exact StepM.respects_pure _
    · exact StepM.hands_throw _
    · exact .bind (StepM.hands_lift (Task.start_respects patience d acts queue)) fun _ => ih _
    · exact .bind (StepM.hands_lift (Task.read_respects k patience)) fun _ => ih _

theorem runTasks_respects (acts : R.Admits act) (k : ConnectionRef) (queue : EventQueue)
    (fuel : Nat) (first second : Task) :
    SessionM.Respects R (runTasks patience act k d queue fuel first second) := by
  induction fuel generalizing first second with
  | zero => exact SessionM.respects_pure _
  | succ fuel ih =>
    unfold runTasks
    split
    · exact SessionM.respects_pure _
    · exact (Task.start_respects patience d acts none).bind fun _ => ih _ _
    · exact (Task.start_respects patience d acts (some queue)).bind fun _ => ih _ _
    · refine (waitReadable_respects k _).run.bind fun waited => ?_
      cases waited with
      | error cause => exact SessionM.respects_pure _
      | ok _ =>
        exact (onChannel_readEvents_respects k).bind fun _ =>
          (Task.read_respects k patience).bind fun _ => ih _ _
    · exact (Task.read_respects k patience).bind fun _ => ih _ _
    · exact (Task.read_respects k patience).bind fun _ => ih _ _

end

/-! ## Steps -/

theorem BlockingCall.run_respects (acts : R.Admits act) (d : Display) (queue : Option EventQueue)
    (call : BlockingCall) : StepM.Respects R (call.run patience act d queue) := by
  cases call with
  | dispatch =>
    exact (d.taskQueue_respects queue).bind fun _ => d.live_respects.bind fun k =>
      (dispatchQueue_respects patience k acts _).bind fun _ => StepM.respects_pure _
  | roundtrip =>
    exact (d.taskQueue_respects queue).bind fun _ =>
      (d.roundtrip_respects patience acts _).bind fun _ => StepM.respects_pure _
  | asyncReadable =>
    exact d.live_respects.bind fun k => (waitReadable_respects k _).bind fun _ =>
      StepM.respects_pure _
  | asyncDispatch =>
    exact d.live_respects.bind fun k =>
      (runTask_respects patience d acts k queue _ _).bind fun _ => StepM.respects_pure _
  | asyncJoin =>
    refine d.live_respects.bind fun k => ?_
    split
    · exact .bind (StepM.hands_lift (runTasks_respects patience d acts k _ _ _ _)) fun _ =>
        StepM.respects_pure _
    · exact StepM.hands_throw _

theorem execute_respects (acts : R.Admits act) (step : Step) :
    StepM.Respects R (execute patience act step) := by
  -- Most steps look up a name first and end with an answer.
  have display {name : String} : StepM.Respects R (named State.displays name) :=
    StepM.respects_named _ _
  have server {name : String} : StepM.Respects R (named State.servers name) :=
    StepM.respects_named _ _
  have held {name : String} : StepM.Respects R (named State.held name) := StepM.respects_named _ _
  have queue {name : String} : StepM.Respects R (named State.queues name) :=
    StepM.respects_named _ _
  have bound {name : String} : StepM.Respects R (named State.proxies name) :=
    StepM.respects_named _ _
  have interface {name : String} : StepM.Respects R (interfaceNamed name) :=
    (StepM.hands_interfaceNamed _).plain
  have looks {given : List Means} : StepM.Hands R given (get : StepM State) fun _ => [] :=
    StepM.respects_get.weaken (List.nil_subset _)
  have answer {payload : Payload} : StepM.Respects R (pure payload : StepM Payload) :=
    StepM.respects_pure _
  -- A name may stand for what is known already.
  have binds (name : String) (b : Bound) :
      StepM.Hands R b.proxy.means (monadLift (bindProxy name b) : StepM Payload) fun _ => [] :=
    StepM.hands_lift (bindProxy_hands name b)
  have replaces (name : String) (b : Bound) :
      StepM.Hands R b.proxy.means (monadLift (replaceProxy name b) : StepM Unit) fun _ => [] :=
    StepM.hands_lift (replaceProxy_hands name b)
  have unnames (name : String) {given : List Means} : StepM.Hands R given
      (modify fun s => { s with proxies := s.proxies.erase name }) fun _ => [] :=
    (StepM.hands_modify fun _ => .proxies Names.means_erase).weaken (List.nil_subset _)
  cases step with
  | connect as =>
    exact .bind (StepM.hands_lift (SessionM.respects_of_rel fun _ => R.opens as)) fun _ => answer
  | valid | getError => exact display.bind fun _ => looks.bind fun _ => answer
  | hasFd => exact display.bind fun _ => answer
  | flush =>
    exact display.bind fun d => d.live_respects.bind fun k =>
      (flushConnection_respects k).bind fun _ => answer
  | dispatchPending name queue =>
    refine display.bind fun d => (queueNamed_respects queue).bind fun q =>
      whileDispatching_respects ?_ _ _
    exact (d.taskQueue_respects q).bind fun _ => d.live_respects.bind fun k =>
      (dispatchPending_respects patience acts k _).bind fun _ => answer
  | blocking name call script =>
    refine display.bind fun d => (queueNamed_respects _).bind fun q => ?_
    have run : StepM.Respects R _ :=
      whileDispatching_respects (call.run_respects patience acts d q) name call.queueName
    cases script with
    | none => exact run
    | some acts => exact server.bind fun k => serving_respects patience run k acts
  -- A display and its connection go together, so these are one change for the relation.
  | destroyDisplay name => exact StepM.respects_of_rel fun _ => R.destroys patience act name
  | dropDisplay name => exact StepM.respects_of_rel fun _ => R.drops patience act name
  | getRegistry =>
    exact display.bind fun d => d.getRegistry_hands.next fun _ => binds _ _
  | sync => exact display.bind fun d => d.sync_hands.next fun _ => binds _ _
  | hold =>
    refine (StepM.hands_display _).next fun d => ?_
    split
    next k connected =>
      refine .next (StepM.Hands.weaken (StepM.hands_modify fun _ => .held Names.means_insert) ?_)
        fun _ => answer
      simp [Display.means, connected]
    · exact answer.weaken (List.nil_subset _)
  | release =>
    exact looks.bind fun _ =>
      .bind (StepM.hands_modify fun _ => .held Names.means_erase) fun _ => answer
  | connectionInfo => exact held.bind fun _ => looks.bind fun _ => answer
  | connectionFlush =>
    exact held.bind fun k => (flushConnection_respects k).bind fun _ => answer
  | objectInfo source | objectContext source =>
    exact (connectionOf_hands source).plain.bind fun _ => looks.bind fun _ => answer
  | borrow source id =>
    exact (connectionOf_hands source).next fun k => (hands_borrow k id).next fun s =>
      binds _ (.plain (s.borrow k id))
  | adopt source =>
    refine (connectionOf_hands source).bind fun k => (StepM.hands_interfaceNamed _).bind fun i =>
      .next (StepM.Hands.weaken (adoptObject_hands k _ i) ?_) fun p => binds _ (.plain p)
    simp
  | create factory interface version as =>
    refine (proxyNamed_respects _).bind fun p => (StepM.hands_interfaceNamed _).next fun i => ?_
    cases version with
    | some version => exact (p.createVersioned_hands i version).next fun o => binds _ (.plain o)
    | none => exact (p.create_hands i).next fun o => binds _ (.plain o)
  | null owned as => exact binds as (.plain { owning := owned })
  | marshal proxy opcode args times =>
    exact (proxyNamed_respects _).bind fun p =>
      (marshalTimes_respects p opcode args times).bind fun _ => answer
  | info => exact (proxyNamed_respects _).bind fun _ => looks.bind fun _ => answer
  | debug =>
    refine looks.bind fun s => ?_
    split
    · exact looks.bind fun _ => answer
    · exact (proxyNamed_respects _).bind fun _ => answer
  | eq => exact (proxyNamed_respects _).bind fun _ => (proxyNamed_respects _).bind fun _ => answer
  | listen proxy listener =>
    exact (proxyNamed_hands _).next fun p => looks.bind fun _ =>
      (p.listen_hands _ listener).next fun _ => answer
  | listenerDebug => exact interface.bind fun _ => answer
  | context => exact (proxyNamed_respects _).bind fun _ => looks.bind fun _ => answer
  | setQueue =>
    exact (proxyNamed_respects _).bind fun p => queue.bind fun q =>
      (p.setQueue_respects q).bind fun _ => answer
  | resetQueue =>
    exact (proxyNamed_respects _).bind fun p => (p.setQueueId_respects _).bind fun _ => answer
  | destroy =>
    refine bound.bind fun b => (StepM.hands_lift b.proxy.destroy_hands).next fun p =>
      .next (StepM.Hands.weaken (replaces _ _) ?_) fun _ => answer
    cases b <;> exact List.Subset.refl _
  | destroyWithRequest proxy opcode args =>
    exact (ownedNamed_hands _).plain.bind fun p =>
      (StepM.hands_lift (p.destroyWithRequest_hands opcode args)).next fun sent =>
        (replaces _ (.plain sent.2)).next fun _ => (StepM.respects_ofExcept _).bind fun _ => answer
  | drop =>
    exact bound.bind fun b => (unnames _).bind fun _ =>
      .bind (StepM.hands_lift b.drop_respects) fun _ => answer
  | take =>
    exact (plainNamed_hands _).next fun p =>
      .bind (StepM.Hands.weaken (replaces _ _) (List.nil_subset _)) fun _ => binds _ (.plain p)
  | wrap =>
    exact (ownedNamed_hands _).next fun p => (boundInterface_hands _).plain.bind fun i =>
      (unnames _).bind fun _ => (StepM.hands_lift (wrapBound_hands i none p)).next fun _ =>
        binds _ _
  | bind registry interface name version listener =>
    exact (registryNamed_respects _).bind fun _ => (boundInterface_hands _).next fun _ =>
      (bindGlobal_hands _ _ _ _ listener).next fun _ => binds _ _
  | globalBind interface version listener as =>
    refine looks.bind fun s => ?_
    split
    · exact StepM.hands_throw _
    · refine (boundInterface_hands _).next fun i => ?_
      have bind (registry : Proxy) (name version : UInt32) : StepM.Hands R [.table i] (do
          bindProxy as (← bindGlobal registry i name version listener)) fun _ => [] :=
        (bindGlobal_hands _ _ _ _ _).next fun _ => binds _ _
      split
      · exact .bind ((StepM.respects_throw _).weaken (List.nil_subset _)) fun _ => bind _ _ _
      · exact bind _ _ _
  | onGlobal proxy handler =>
    exact (registryNamed_respects _).bind fun registry => .bind (StepM.hands_lift
      (SessionM.respects_of_rel fun _ => R.onGlobal registry.2 handler)) fun _ => answer
  | onGlobalRemove proxy handler =>
    exact (registryNamed_respects _).bind fun registry => .bind (StepM.hands_lift
      (SessionM.respects_of_rel fun _ => R.onGlobalRemove registry.2 handler)) fun _ => answer
  | onDone =>
    exact (callbackNamed_respects _).bind fun cell =>
      .bind (StepM.hands_lift (modifyCallback_respects cell fun _ => rfl)) fun _ => answer
  | createQueue =>
    exact display.bind fun d => d.live_respects.bind fun k => (createQueue_respects k).bind fun q =>
      .bind (StepM.hands_lift (bindQueue_respects _ q)) fun _ => answer
  | queueInfo => exact queue.bind fun _ => looks.bind fun _ => answer
  | queueEq => exact queue.bind fun _ => queue.bind fun _ => answer
  | destroyQueue | dropQueue =>
    exact queue.bind fun q => (requireIdleQueue_respects _).bind fun _ =>
      .bind (StepM.hands_lift q.destroy_respects) fun _ =>
        .bind (StepM.hands_modify fun _ => .aside) fun _ => answer
  | prepareRead name queue as =>
    refine (StepM.hands_display _).next fun d =>
      .bind ((queueNamed_respects queue).weaken (List.nil_subset _)) fun q =>
        .bind ((d.taskQueue_respects q).weaken (List.nil_subset _)) fun id =>
          d.live_hands.next fun k =>
            .bind ((prepareRead_respects k id).weaken (List.nil_subset _)) fun _ =>
              (StepM.hands_lift (bindIntent_hands as k)).next fun _ => answer
  | readEvents =>
    exact (takeIntent_respects _).bind fun k => (readEvents_respects k).bind fun _ => answer
  | cancelRead | dropIntent =>
    exact (takeIntent_respects _).bind fun k =>
      .bind (StepM.hands_lift (cancelRead_respects k)) fun _ => answer
  | readTogether intents =>
    exact (takeIntents_respects intents).bind fun ks =>
      .bind (StepM.hands_lift (readTogether_respects ks)) fun _ => answer
  | pump =>
    refine display.bind fun d => whileDispatching_respects ?_ _ _
    exact d.live_respects.bind fun k => (prepareRead_respects k _).bind fun _ =>
      (readEvents_respects k).bind fun _ =>
        (dispatchPending_respects patience acts k _).bind fun _ => answer
  | serverSend display bytes fds =>
    refine server.bind fun k =>
      .bind (StepM.hands_lift (SessionM.hands_onChannel fun channel => ?_)) fun _ => answer
    cases channel.link.serverSend? bytes fds <;> exact .refl
  | serverReceive =>
    exact server.bind fun k =>
      .bind (StepM.hands_lift (SessionM.hands_onChannel fun _ => .refl)) fun _ => answer
  | drain =>
    exact display.bind fun d => server.bind fun k => (drainFrom_respects d k _ _).bind fun _ =>
      looks.bind fun _ => answer
  | serverClose =>
    exact server.bind fun k => .bind (StepM.hands_modify fun _ => .aside) fun _ =>
      .bind (StepM.hands_lift (closeServer_respects k)) fun _ => answer

end Wayland.Session
