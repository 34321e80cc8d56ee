import Wayland.Proofs.Session.Logs

/-! # Scripts have logs

For every script there is a log of what happens while it runs, and the calls in the log are those
that the answers of the script list, each of them once and in the same order (`runSteps_logged`).
The log relation is respected by everything that steps do, by induction on how deep handlers call
handlers.

On the way it turns out what an application can have: connections that exist, objects by the right
name, and tables of the program (`State.Knows`).  So whatever is attached to an object has a handler
for each of its events (`State.Fair`).
-/

namespace Wayland.Client

variable {δ : Type}

theorem ObjectTable.Named.run {tables : List Interface} {c : Connection δ} {o : ObjectRef}
    (named : c.objects.Named tables o) (actions : List (Action δ)) :
    (c.run actions).objects.Named tables o := by
  induction actions generalizing c with
  | nil => exact named
  | cons action actions ih => exact ih (named.carry (c.step_effect action).carries)

end Wayland.Client

namespace Wayland.Session

open Client (Action Connection Delivery Note ObjectRef QueueId Uniform)

/-! ## Calls in answers -/

mutual

/-- The calls of handlers that an answer lists, in the order in which they began. -/
def Answer.invoked : Answer → List (String × Cause)
  | .mk _ calls _ => invokedCalls calls

def invokedCalls : List (Call Answer) → List (String × Cause)
  | [] => []
  | call :: calls => invokedCall call ++ invokedCalls calls

def invokedCall : Call Answer → List (String × Cause)
  | ⟨label, cause, actions⟩ => (label, cause) :: invokedAnswers actions

def invokedAnswers : List Answer → List (String × Cause)
  | [] => []
  | answer :: answers => answer.invoked ++ invokedAnswers answers

end

theorem invokedCalls_append (calls more : List (Call Answer)) :
    invokedCalls (calls ++ more) = invokedCalls calls ++ invokedCalls more := by
  induction calls with
  | nil => rfl
  | cons call calls ih => simp [invokedCalls, ih]

theorem invokedAnswers_eq (answers : List Answer) :
    invokedAnswers answers = answers.flatMap Answer.invoked := by
  induction answers with
  | nil => rfl
  | cons answer answers ih => simp [invokedAnswers, ih]

/-- The call that a mark shows. -/
def Mark.invoked? : Mark → Option (String × Cause)
  | .hands _ _ _ (some call) => some (call.label, call.cause)
  | _ => none

/-- The calls of handlers that a log shows. -/
def invoked (log : List Mark) : List (String × Cause) := log.filterMap Mark.invoked?

@[simp] theorem invoked_append (log more : List Mark) :
    invoked (log ++ more) = invoked log ++ invoked more := List.filterMap_append

theorem invoked_call {k : ConnectionRef} {queue : QueueId} {d : Delivery ObjectData}
    {call : Invocation} {inner : List Mark} {installed : Slot → Option Handler} :
    invoked (.hands k queue d (some call) :: (inner ++ [.returns d installed])) =
      (call.label, call.cause) :: invoked inner := by
  simp [invoked, Mark.invoked?]

/-! ## What an application has -/

/-- The tables of a program. -/
def State.tables (s : State) : List Interface := Protocol.Core.tables ++ s.protocol.interfaces

/-- What an application can have. -/
def State.Knows (s : State) : Means → Prop
  | .connection k => k < s.channels.length
  | .object h => h.connection < s.channels.length ∧
      (s.connectionAt h.connection).objects.Named s.tables h.object
  | .table i => i ∈ s.tables

/-- What is attached to objects fits them, and names stand for what an application can have. -/
structure State.Fair (s : State) : Prop where
  fitted : ∀ k, (s.connectionAt k).Fitted s.tables ObjectData.handlers
  named : ∀ x ∈ s.means, s.Knows x

section

variable {s t : State} {x : Means}

/-- Nothing gets lost as connections move on. -/
theorem State.Knows.move (known : s.Knows x) (protocol : t.protocol = s.protocol)
    (channels : s.channels.length ≤ t.channels.length)
    (connections : ∀ k, ∃ course, t.connectionAt k = (s.connectionAt k).run course) :
    t.Knows x := by
  have tables : t.tables = s.tables := by rw [State.tables, protocol, State.tables]
  cases x with
  | connection k => exact Nat.lt_of_lt_of_le known channels
  | object h =>
    obtain ⟨there, named⟩ := known
    obtain ⟨course, moved⟩ := connections h.connection
    refine ⟨Nat.lt_of_lt_of_le there channels, ?_⟩
    rw [moved, tables]
    exact named.run course
  | table i =>
    change i ∈ t.tables
    rw [tables]
    exact known

theorem State.Knows.passes {patience : Nat} {scope : Scope} {log : List Mark} (known : s.Knows x)
    (passes : s.Passes patience scope log t) : t.Knows x := by
  obtain ⟨protocol, channels, connections⟩ := passes.moves
  exact known.move protocol channels fun k => ⟨_, connections k⟩

theorem State.Fair.quiet (fair : s.Fair) (quiet : s.Quiet t)
    (means : ∀ x ∈ t.means, s.Knows x ∨ t.Knows x) : t.Fair := by
  have tables : t.tables = s.tables := by rw [State.tables, quiet.protocol, State.tables]
  refine ⟨fun k => ?_, fun x mem => (means x mem).elim (fun known => ?_) id⟩
  · rw [quiet.connections, tables]
    exact fair.fitted k
  · exact known.move quiet.protocol quiet.channels fun k => ⟨[], quiet.connections k⟩

theorem State.Fair.alike (fair : s.Fair) (alike : s.Alike t) : t.Fair := by
  have tables : t.tables = s.tables := by rw [State.tables, alike.protocol, State.tables]
  refine ⟨fun k => ?_, fun x mem => ?_⟩
  · rw [alike.connections, tables]
    exact fair.fitted k
  · rw [alike.means] at mem
    exact (fair.named x mem).move alike.protocol
      (Nat.le_of_eq (congrArg List.length alike.channels.symm)) fun k => ⟨[], alike.connections k⟩

/-- A connection shows its objects. -/
theorem State.Fair.shown (fair : s.Fair) {k : ConnectionRef} {id : ObjectId} {o : ObjectRef}
    (known : k < s.channels.length) (shown : (s.channel k).connection.ref? id = some o) :
    s.Knows (.object ⟨k, o⟩) := by
  obtain ⟨_, _, same⟩ := Option.map_eq_some_iff.1 shown
  obtain rfl : id = o.id := by rw [← same]
  rw [← connectionAt_of_lt known] at shown
  exact ⟨known, Connection.named_of_ref? (fair.fitted k).below (fair.fitted k).known shown⟩

/-- A connection takes an action that the application has everything for. -/
theorem State.Fair.putChannel (fair : s.Fair) {k : ConnectionRef} {channel : Channel}
    {action : Action ObjectData} (notes : List Note) (known : k < s.channels.length)
    (tabled : ∀ i ∈ action.interface?, i ∈ s.tables)
    (named : ∀ o ∈ action.target?, (s.connectionAt k).objects.Named s.tables o)
    (offers : ∀ offer ∈ action.offer?, offer.2.handlers = offer.1)
    (moved : channel.connection = ((s.channel k).connection.step action).after) :
    (s.putChannel k channel notes).Fair := by
  rw [← connectionAt_of_lt known] at moved
  have connections : ∀ j, (s.putChannel k channel notes).connectionAt j =
      if j = k then ((s.connectionAt k).step action).after else s.connectionAt j := by
    intro j
    rw [connectionAt_putChannel, moved]
    simp [known]
  refine ⟨fun j => ?_, fun x mem => (fair.named x mem).move rfl ?_ fun j => ?_⟩
  · rw [connections]
    split
    · exact (fair.fitted k).step tabled named offers
    · exact fair.fitted j
  · simp [State.putChannel]
  · rw [connections]
    split
    next here => exact ⟨[action], by rw [here]; rfl⟩
    next => exact ⟨[], rfl⟩

end

/-! ## Logs of calls -/

/-- Every event in a log is for something with a handler for each event of the sender. -/
def Suited (tables : List Interface) (log : List Mark) : Prop :=
  ∀ k queue d called, .hands k queue d called ∈ log → Uniform tables →
    d.data.handlers = d.interface.events.length

/-- The log of a part of a step.  The calls in it are those that were listed meanwhile. -/
structure State.Logs (patience depth : Nat) (s : State) (log : List Mark) (t : State) : Prop where
  passes : s.Passes patience (.step depth) log t
  fair : t.Fair
  suited : Suited s.tables log
  lists : ∃ calls : List (Call Answer), t.frame.calls.toList = s.frame.calls.toList ++ calls ∧
    invokedCalls calls = invoked log

theorem suited_append {tables : List Interface} {log more : List Mark} (first : Suited tables log)
    (second : Suited tables more) : Suited tables (log ++ more) :=
  fun k queue d called mem => (List.mem_append.1 mem).elim (first k queue d called)
    (second k queue d called)

theorem State.Passes.tables {s t : State} {patience : Nat} {scope : Scope} {log : List Mark}
    (passes : s.Passes patience scope log t) : t.tables = s.tables := by
  rw [State.tables, passes.moves.1, State.tables]

/-- The tables that an action needs. -/
theorem tabled_of_needs {s : State} {k : ConnectionRef} {action : Action ObjectData}
    (needed : ∀ x ∈ needs k action, s.Knows x) : ∀ i ∈ action.interface?, i ∈ s.tables := by
  cases action with
  | create | adopt =>
    intro i named
    cases named
    exact needed (.table _) (List.mem_singleton_self _)
  | _ => exact fun _ named => by cases named

namespace State.Logs

variable {patience depth : Nat} {s t u : State} {log more : List Mark}

theorem trans (first : s.Logs patience depth log t) (second : t.Logs patience depth more u) :
    s.Logs patience depth (log ++ more) u := by
  obtain ⟨calls, listed, called⟩ := first.lists
  obtain ⟨calls', listed', called'⟩ := second.lists
  refine ⟨.append first.passes second.passes, second.fair, ?_, calls ++ calls', ?_, ?_⟩
  · exact suited_append first.suited (first.passes.tables ▸ second.suited)
  · rw [listed', listed, List.append_assoc]
  · rw [invokedCalls_append, called, called', invoked_append]

/-- No event is handed out. -/
theorem still (passes : s.Passes patience (.step depth) log t) (fair : t.Fair)
    (silent : ∀ k queue d called, .hands k queue d called ∉ log)
    (calls : t.frame.calls = s.frame.calls) : s.Logs patience depth log t := by
  refine ⟨passes, fair, ?_, [], ?_, ?_⟩
  · exact fun k queue d called mem => absurd mem (silent k queue d called)
  · rw [calls, List.append_nil]
  · refine (List.filterMap_eq_nil_iff.2 fun mark mem => ?_).symm
    cases mark with
    | hands k queue d called => exact absurd mem (silent k queue d called)
    | _ => rfl

theorem refl (fair : s.Fair) : s.Logs patience depth [] s := .still .done fair (by simp) rfl

theorem quiet (fair : s.Fair) (quiet : s.Quiet t) (means : ∀ x ∈ t.means, s.Knows x ∨ t.Knows x) :
    s.Logs patience depth [] t :=
  .still (.quiet quiet) (fair.quiet quiet means) (by simp) quiet.calls

/-- A change that is no part of a log. -/
theorem aside (fair : s.Fair) (protocol : t.protocol = s.protocol)
    (channels : t.channels = s.channels) (registries : t.registries = s.registries)
    (calls : t.frame.calls = s.frame.calls) (means : ∀ x ∈ t.means, s.Knows x) :
    s.Logs patience depth [] t := by
  have quiet : s.Quiet t :=
    { protocol, calls
      channels := Nat.le_of_eq (congrArg List.length channels.symm)
      connections := fun _ => connectionAt_congr protocol channels
      installed := fun _ => installed_congr registries
      registries := Nat.le_of_eq (congrArg List.length registries.symm) }
  exact .quiet fair quiet fun x mem => .inl (means x mem)

/-- The connection stays as it is. -/
theorem putChannel {k : ConnectionRef} {channel : Channel} (notes : List Note) (fair : s.Fair)
    (unmoved : k < s.channels.length → channel.connection = (s.channel k).connection) :
    s.Logs patience depth [] (s.putChannel k channel notes) := by
  have same : (s.putChannel k channel notes).channels.length = s.channels.length := by
    simp [State.putChannel]
  refine .quiet fair ⟨rfl, Nat.le_of_eq same.symm, fun j => ?_, fun _ => rfl, Nat.le_refl _, rfl⟩
    fun x mem => .inl (fair.named x mem)
  rw [connectionAt_putChannel]
  split
  next here => rw [here.1, unmoved here.2, connectionAt_of_lt here.2]
  · rfl

/-- An action that hands out no event. -/
theorem acts {k : ConnectionRef} {channel : Channel} {action : Action ObjectData}
    (notes : List Note) (fair : s.Fair) (known : k < s.channels.length)
    (needed : ∀ x ∈ needs k action, s.Knows x)
    (offers : ∀ offer ∈ action.offer?, offer.2.handlers = offer.1)
    (silent : ((s.channel k).connection.step action).delivery? = none)
    (moved : channel.connection = ((s.channel k).connection.step action).after) :
    s.Logs patience depth [.acts k action] (s.putChannel k channel notes) := by
  refine .still (.acts known silent moved)
    (fair.putChannel notes known (tabled_of_needs needed) ?_ offers moved) (by simp) rfl
  cases action with
  | attach =>
    intro o target
    cases target
    exact (needed (.object _) (List.mem_singleton_self _)).2
  | _ => exact fun _ target => by cases target

end State.Logs

theorem Plain.silent {action : Action ObjectData} (plain : Plain action)
    (c : Connection ObjectData) : (c.step action).delivery? = none := by
  cases action with
  | next => exact plain.elim
  | _ => rfl

theorem Plain.offers {action : Action ObjectData} (plain : Plain action) :
    ∀ offer ∈ action.offer?, offer.2.handlers = offer.1 := by
  cases action with
  | attach =>
    intro offer offered
    cases offered
    exact plain.1
  | _ => exact fun _ offered => by cases offered

section

variable {patience depth : Nat} {s t : State}

/-- Everything that calls do has a log. -/
def logCalls (patience depth : Nat) : CallRelation where
  Good := State.Fair
  Knows := State.Knows
  Rel s t := ∃ log, s.Logs patience depth log t
  refl fair := ⟨[], .refl fair⟩
  trans := by
    rintro s t u ⟨_, first⟩ ⟨_, second⟩
    exact ⟨_, first.trans second⟩
  stays := by
    rintro s t _ ⟨_, logs⟩
    exact logs.fair
  keeps := by
    rintro s t x _ ⟨_, logs⟩ known
    exact known.passes logs.passes
  named fair mem := fair.named _ mem
  tabled mem := mem
  shown fair known shown := fair.shown known shown
  idle := by
    intro s t given fair known idle
    refine ⟨[], .aside fair idle.protocol idle.channels idle.registries idle.calls fun x mem => ?_⟩
    exact (List.mem_append.1 (idle.means mem)).elim (known x) (fair.named x)
  moves := by
    intro s k channel given notes fair all moves
    obtain unmoved | ⟨action, plain, needed, moved⟩ := moves
    · exact ⟨[], .putChannel notes fair fun _ => unmoved⟩
    · by_cases known : k < s.channels.length
      · exact ⟨_, .acts notes fair known (fun x mem => all x (needed mem)) plain.offers
          (plain.silent _) moved⟩
      · exact ⟨[], .putChannel notes fair fun there => absurd there known⟩
  makes := by
    intro s k channel action o notes fair known needed moved made
    have there : k < s.channels.length := known
    have tabled := tabled_of_needs needed
    rw [← connectionAt_of_lt there] at moved made
    refine ⟨by simpa [State.putChannel] using there, ?_⟩
    rw [connectionAt_putChannel, if_pos ⟨rfl, there⟩, moved]
    exact Connection.named_of_report (fair.fitted k).below tabled made

/-! ## Logs of deliveries -/

/-- The steps of a handler have a log of their own.  Its calls are those that their answers list,
    and they are no part of what the step lists that has called the handler. -/
def Act.Logged (patience depth : Nat) (act : Act) : Prop :=
  ∀ steps s, s.Fair → ∃ log, s.Passes patience (.script depth) log ((act steps).run s).2 ∧
    ((act steps).run s).2.Fair ∧ Suited s.tables log ∧
    ((act steps).run s).2.frame = s.frame ∧ invokedAnswers ((act steps).run s).1 = invoked log

/-- An action that asks for an event needs nothing. -/
theorem State.Fair.popped (fair : s.Fair) {k : ConnectionRef} {queue : QueueId}
    (known : k < s.channels.length) : (s.popped k queue).Fair := by
  refine fair.putChannel _ known ?_ ?_ ?_ rfl
  · exact fun _ named => by cases named
  · exact fun _ target => by cases target
  · exact fun _ offered => by cases offered

theorem State.Fair.suits (fair : s.Fair) {k : ConnectionRef} {queue : QueueId}
    {d : Delivery ObjectData} (handed : s.handsOut k queue = some d) (called : Option Invocation) :
    Suited s.tables [.hands k queue d called] := by
  have delivered : ((s.connectionAt k).step (.next queue)).delivery? = some d := by
    rw [connectionAt_of_lt (lt_of_delivery handed)]
    exact handed
  intro _ _ _ _ mem uniform
  cases List.mem_singleton.1 mem
  exact (fair.fitted k).delivered uniform delivered

/-- Whatever an event calls, what happens meanwhile is in the log. -/
theorem deliver_logged (logged : (runSteps patience depth).Logged patience depth)
    (fair : s.Fair) {k : ConnectionRef} {queue : QueueId} {d : Delivery ObjectData}
    (handed : s.handsOut k queue = some d) :
    ∃ log, s.Logs patience depth log
      ((deliver (runSteps patience depth) k d).run (s.popped k queue)).2 := by
  have popped : (s.popped k queue).Fair := fair.popped (lt_of_delivery handed)
  cases summoned : (s.popped k queue).summoned k d with
  | none =>
    have only := deliver_silent (runSteps patience depth) summoned
    refine ⟨_, .misses handed summoned only rfl, popped.alike only.toAlike, fair.suits handed none,
      [], ?_, rfl⟩
    rw [only.calls, List.append_nil]
    rfl
  | some call =>
    obtain ⟨begun, left, ended, calls⟩ := deliver_calls (runSteps patience depth) summoned
    obtain ⟨inner, passes, fairLeft, suited, frame, answers⟩ :=
      logged call.actions begun (popped.alike calls.begins.toAlike)
    rw [calls.runs] at passes fairLeft frame
    rw [calls.delivers]
    have tables : begun.tables = s.tables := by
      rw [State.tables, calls.begins.protocol]
      rfl
    have listed : ended.frame.calls = s.frame.calls.push
        ⟨call.label, call.cause, ((runSteps patience depth call.actions).run begun).1⟩ := by
      rw [calls.lists, frame, calls.begins.calls]
      rfl
    refine ⟨_, .calls handed calls passes, fairLeft.alike calls.ends, ?_,
      [⟨call.label, call.cause, ((runSteps patience depth call.actions).run begun).1⟩], ?_, ?_⟩
    · have returned : Suited s.tables [.returns d ended.installed] := by simp [Suited]
      exact suited_append (fair.suits handed _) (suited_append (tables ▸ suited) returned)
    · rw [listed, Array.toList_push]
    · rw [invoked_call, ← answers]
      simp [invokedCalls, invokedCall]

/-! ## Logs of scripts -/

/-- What displays stand for is known. -/
theorem means_displays {displays : Names Display} {given : List Means}
    (known : displays.means Display.means ⊆ given ++ s.displays.means Display.means) :
    State.means { s with displays } ⊆ given ++ s.means := by
  intro x mem
  have known := @known x
  simp only [State.means, List.mem_append] at mem known ⊢
  grind

/-- A new connection shows its display. -/
theorem State.Fair.opened (fair : s.Fair) (name : String) :
    s.Logs patience depth [] (s.opened name) := by
  let grown : State := { s with channels := s.channels ++ [s.nextChannel] }
  have quiet : s.Quiet grown :=
    { protocol := rfl
      channels := by simp [grown]
      connections := connectionAt_opened s name
      installed := fun _ => rfl
      registries := Nat.le_refl _
      calls := rfl }
  have grows : s.Logs patience depth [] grown := .quiet fair quiet fun x mem =>
    .inl (fair.named x mem)
  have there : s.channels.length < grown.channels.length := by simp [grown]
  refine grows.trans (.aside grows.fair rfl rfl rfl rfl fun x mem => ?_)
  obtain new | old := List.mem_append.1 (means_displays Names.means_insert mem)
  · simp only [State.openedDisplay, Display.means, Proxy.means, State.borrow, List.mem_append,
      Option.mem_toList, Option.map_eq_some_iff, Option.bind_eq_some_iff, Option.some.injEq] at new
    obtain ⟨_, rfl, rfl⟩ | ⟨_, ⟨o, ⟨_, _, shown⟩, rfl⟩, rfl⟩ := new
    · exact there
    · exact grows.fair.shown there shown
  · exact grows.fair.named x old

theorem openDisplay_logged (fair : s.Fair) (name : String) :
    ∃ log, s.Logs patience depth log ((openDisplay name).run s).2 := by
  have opens : s.Logs patience depth [] (s.opened name) := fair.opened name
  have destroys (old : Display) :
      ∃ log, s.Logs patience depth log (old.destroy.run (s.opened name)).2 := by
    obtain ⟨_, logs⟩ := (old.destroy_respects (C := logCalls patience depth) _ opens.fair
      CallRelation.all_nil).1
    exact ⟨_, opens.trans logs⟩
  have closes {t : State} (server : ConnectionRef) (before : ∃ log, s.Logs patience depth log t) :
      ∃ log, s.Logs patience depth log ((closeServer server).run t).2 := by
    obtain ⟨_, before⟩ := before
    obtain ⟨_, logs⟩ := (closeServer_respects (C := logCalls patience depth) server _ before.fair
      CallRelation.all_nil).1
    exact ⟨_, before.trans logs⟩
  rw [openDisplay_run]
  cases s.displays.find? name with
  | none =>
    cases s.servers.find? name with
    | none => exact ⟨_, opens⟩
    | some server => exact closes server ⟨_, opens⟩
  | some old =>
    cases s.servers.find? name with
    | none => exact destroys old
    | some server => exact closes server (destroys old)

theorem Display.destroy_means (d : Display) (s : State) : (d.destroy.run s).1.means = [] := by
  cases connected : d.connection with
  | none => rw [display_destroy_again connected]; rfl
  | some k => rw [display_destroy_run connected]; rfl

/-- A display goes away, and its name may go on to stand for what is left of it. -/
theorem Display.leaves_logged {name : String} {left : Names Display → Display → Names Display}
    (fewer : ∀ displays d,
      (left displays d).means Display.means ⊆ d.means ++ displays.means Display.means)
    (fair : s.Fair) : ∃ log, s.Logs patience depth log (Display.leaves s name left).2 := by
  unfold Display.leaves
  split
  · exact ⟨[], .refl fair⟩
  next d _ =>
    split
    · exact ⟨[], .refl fair⟩
    · obtain ⟨_, destroys⟩ :=
        (d.destroy_respects (C := logCalls patience depth) s fair CallRelation.all_nil).1
      refine ⟨_, destroys.trans (.aside destroys.fair rfl rfl rfl rfl fun x mem => ?_)⟩
      have known := means_displays (fewer _ _) mem
      rw [d.destroy_means, List.nil_append] at known
      exact destroys.fair.named x known

theorem reinstall_logged (fair : s.Fair) (slot : Slot) (h : Handler) :
    ∃ log, s.Logs patience depth log (s.reinstall slot fun _ => some h) := by
  by_cases known : slot.cell < s.registries.length
  · refine ⟨_, .still (.sets known) ⟨fair.fitted, fair.named⟩ (by simp) rfl⟩
  · refine ⟨[], .aside fair rfl rfl ?_ rfl fair.named⟩
    exact List.modify_eq_self (Nat.le_of_not_lt known)

/-- A queue that has nothing to hand out was asked. -/
theorem popped_logged (fair : s.Fair) {k : ConnectionRef} {queue : QueueId}
    (nothing : s.handsOut k queue = none) :
    ∃ log, s.Logs patience depth log (s.popped k queue) := by
  by_cases known : k < s.channels.length
  · refine ⟨_, .acts _ fair known ?_ ?_ nothing rfl⟩
    · exact fun _ needed => by cases needed
    · exact fun _ offered => by cases offered
  · exact ⟨[], .putChannel _ fair fun there => absurd there known⟩

/-- Everything that steps do has a log, if the steps of handlers have. -/
def logScripts (patience depth : Nat) : ScriptRelation where
  toCallRelation := logCalls patience depth
  Admits act := act = runSteps patience depth ∧ act.Logged patience depth
  registry := by
    intro s fair
    refine ⟨[], .quiet fair ?_ fun x mem => .inl (fair.named x mem)⟩
    exact ⟨rfl, Nat.le_refl _, fun _ => rfl, fun _ => installed_append, by simp, rfl⟩
  callback fair := ⟨[], .aside fair rfl rfl rfl rfl fair.named⟩
  attaches := by
    intro s k channel o interface notes fair known moved
    let action : Action ObjectData :=
      .attach o interface Protocol.Core.callback.events.length (.callback s.callbacks.length)
    have logs : s.Logs patience depth [.acts k action] (s.putChannel k channel notes) := by
      refine .acts notes fair known.1 ?_ ?_ rfl moved
      · exact fun x needed => List.mem_singleton.1 needed ▸ known
      · exact fun offer offered => by cases offered; rfl
    exact ⟨_, logs.trans (.aside logs.fair rfl rfl rfl rfl logs.fair.named)⟩
  onGlobal cell handler fair := reinstall_logged fair ⟨cell, .global⟩ handler
  onGlobalRemove cell handler fair := reinstall_logged fair ⟨cell, .globalRemove⟩ handler
  onDone _ _ fair _ := ⟨[], .aside fair rfl rfl rfl rfl fair.named⟩
  opens name fair := openDisplay_logged fair name
  destroys := by
    intro s patience' act name fair
    rw [outcome_destroyDisplay]
    exact Display.leaves_logged (fun _ _ => Names.means_insert) fair
  drops := by
    intro s patience' act name fair
    rw [outcome_dropDisplay]
    refine Display.leaves_logged (fun _ d => ?_) fair
    exact List.subset_append_of_subset_right d.means Names.means_erase
  asks fair nothing := popped_logged fair nothing
  delivers := by
    rintro act s k queue d ⟨rfl, logged⟩ fair handed
    exact deliver_logged logged fair handed

theorem runStep_logged (logged : (runSteps patience depth).Logged patience depth) (step : Step)
    (fair : s.Fair) :
    let run := (runStep patience (runSteps patience depth) step).run s
    ∃ log, s.Passes patience (.script (depth + 1)) log run.2 ∧ run.2.Fair ∧ Suited s.tables log ∧
      run.2.frame = s.frame ∧ run.1.invoked = invoked log := by
  intro run
  have respects := execute_respects (R := logScripts patience depth) patience ⟨rfl, logged⟩ step
  obtain ⟨log, logs⟩ :=
    (respects { s with frame := {} } ⟨fair.fitted, fair.named⟩ CallRelation.all_nil).1
  obtain ⟨calls, listed, called⟩ := logs.lists
  refine ⟨log, .step logs.passes, ⟨logs.fair.fitted, logs.fair.named⟩, logs.suited, rfl, ?_⟩
  rw [← called]
  exact congrArg invokedCalls listed

/-- Whatever a script does, and whatever its handlers do meanwhile, is in a log.  The induction is
    on how deep handlers may call handlers. -/
theorem runSteps_logged (patience depth : Nat) :
    (runSteps patience depth).Logged patience depth := by
  induction depth with
  | zero =>
    intro steps s fair
    refine ⟨[], .done, fair, by simp [Suited], rfl, ?_⟩
    change invokedAnswers (steps.map fun _ => .mk (.error .stalled) [] []) = []
    simp [invokedAnswers_eq, Answer.invoked, invokedCalls]
  | succ depth ih =>
    intro steps s fair
    unfold runSteps
    induction steps generalizing s with
    | nil => exact ⟨[], .done, fair, by simp [Suited], rfl, rfl⟩
    | cons step steps each =>
      obtain ⟨log, first, fair', suited, frame, answered⟩ := runStep_logged ih step fair
      obtain ⟨more, rest, last, suited', frame', answered'⟩ := each _ fair'
      rw [List.mapM_cons, run_bind, run_bind]
      refine ⟨log ++ more, .append first rest, last, ?_, frame'.trans frame, ?_⟩
      · exact suited_append suited (first.tables ▸ suited')
      · rw [invoked_append, ← answered, ← answered']
        rfl

end

/-! ## From the start -/

theorem connectionAt_start (protocol : Protocol) (k : ConnectionRef) :
    (State.start protocol).connectionAt k = Connection.initial protocol := by
  have opened : State.start protocol = { State.opened { protocol } "d" with frame := {} } := rfl
  rw [opened]
  exact (connectionAt_opened { protocol } "d" k).trans (connectionAt_of_le (Nat.zero_le k))

theorem State.start_fair (protocol : Protocol) : (State.start protocol).Fair := by
  have blank : State.Fair { protocol } := by
    refine ⟨fun k => ?_, fun x mem => by cases mem⟩
    rw [connectionAt_of_le (Nat.zero_le k)]
    refine Connection.initial_fitted ?_ (List.subset_append_right _ _)
    simp [State.tables, Protocol.Core.tables]
  obtain ⟨_, logs⟩ : ∃ log,
      State.Logs 0 0 { protocol } log ((openDisplay "d").run { protocol }).2 :=
    openDisplay_logged blank "d"
  exact ⟨logs.fair.fitted, logs.fair.named⟩

theorem State.start_stands (protocol : Protocol) :
    Stands (State.start protocol) [] (State.start protocol) := by
  refine ⟨fun _ => rfl, fun slot => ?_⟩
  have none : (State.start protocol).registries = [] := rfl
  obtain ⟨cell, notice⟩ := slot
  cases notice <;> simp [State.installed, State.registryHandlers, none, Slot.held, Slot.latest,
    Slot.busy, RegistryHandlers.get]

/-- Every script has a log that says the truth.  Its calls are those that the answers list, and once
    the script is over, the handlers that were set last are in their slots. -/
theorem script_logged (protocol : Protocol) (patience depth : Nat) (steps : List Step) :
    let s := State.start protocol
    let run := (runSteps patience depth steps).run s
    ∃ log, s.Passes patience (.script depth) log run.2 ∧
      run.1.flatMap Answer.invoked = invoked log ∧ Suited s.tables log ∧ Fits s [] log ∧
      ∀ slot : Slot, run.2.installed slot = slot.latest log := by
  intro s run
  obtain ⟨log, passes, _, suited, _, answers⟩ :=
    runSteps_logged patience depth steps s (State.start_fair protocol)
  have stands := State.start_stands protocol
  refine ⟨log, passes, ?_, suited, (passes.fits stands).1, passes.installed stands⟩
  rw [← answers, invokedAnswers_eq]

end Wayland.Session
