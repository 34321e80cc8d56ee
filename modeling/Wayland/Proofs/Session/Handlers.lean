import Wayland.Proofs.Client.Listeners
import Wayland.Proofs.Session.Requests

/-! # Whom an event calls

What is attached to an object has a table of handlers, one for each event (`ObjectData.table`), and
`deliver` runs the one that the opcode of an event points to.  A handler of a listener always runs
steps of the application.  A registry has two places for handlers of the application, one for
globals that are announced and one for globals that are withdrawn (`Slot`), and a callback has one;
these places may be empty.

`State.summoned` says whom an event calls in the end.  A handler of a registry is taken out of its
slot while it runs, and it is put back afterwards, unless it was replaced meanwhile; `State.Calls`
names the sessions that a call begins with, leaves and ends with.
-/

namespace Wayland.Session

open Client (Delivery Note QueuedEvent)

/-! ## Places for handlers -/

/-- The events that a registry has handlers for. -/
inductive Notice
  | global | globalRemove
  deriving DecidableEq

/-- A place for a handler: of which registry, and for which event. -/
structure Slot where
  cell : Nat
  notice : Notice
  deriving DecidableEq

namespace RegistryHandlers

def get (r : RegistryHandlers) : Notice → Option Handler
  | .global => r.global
  | .globalRemove => r.globalRemove

def put (r : RegistryHandlers) (notice : Notice) (handler : Option Handler) : RegistryHandlers :=
  match notice with
  | .global => { r with global := handler }
  | .globalRemove => { r with globalRemove := handler }

theorem get_put (r : RegistryHandlers) (notice other : Notice) (handler : Option Handler) :
    (r.put notice handler).get other = if other = notice then handler else r.get other := by
  cases notice <;> cases other <;> rfl

end RegistryHandlers

/-- The handler that is in a slot. -/
def State.installed (s : State) (slot : Slot) : Option Handler :=
  (s.registryHandlers slot.cell).get slot.notice

/-- The handler in a slot changes. -/
def State.reinstall (s : State) (slot : Slot) (f : Option Handler → Option Handler) : State :=
  { s with registries := s.registries.modify slot.cell fun r =>
      r.put slot.notice (f (r.get slot.notice)) }

section

variable {s t : State} {slot other : Slot} {f : Option Handler → Option Handler} {h : Handler}

theorem installed_congr (same : t.registries = s.registries) :
    t.installed slot = s.installed slot := by
  simp [State.installed, State.registryHandlers, same]

theorem installed_append :
    State.installed { s with registries := s.registries ++ [{}] } slot = s.installed slot := by
  unfold State.installed State.registryHandlers
  rw [List.getD_eq_getElem?_getD, List.getD_eq_getElem?_getD, List.getElem?_append]
  split
  · rfl
  next beyond =>
    rw [List.getElem?_eq_none (Nat.le_of_not_lt beyond), List.getElem?_singleton]
    split <;> rfl

theorem lt_of_installed (found : s.installed slot = some h) :
    slot.cell < s.registries.length := by
  refine Nat.lt_of_not_le fun beyond => ?_
  unfold State.installed State.registryHandlers at found
  rw [List.getD_eq_getElem?_getD, List.getElem?_eq_none beyond] at found
  cases notice : slot.notice <;> rw [notice] at found <;> cases found

theorem installed_reinstall (known : slot.cell < s.registries.length) :
    (s.reinstall slot f).installed other =
      if other = slot then f (s.installed slot) else s.installed other := by
  obtain ⟨cell, notice⟩ := slot
  obtain ⟨cell', notice'⟩ := other
  unfold State.installed State.registryHandlers State.reinstall
  dsimp only at known ⊢
  simp only [List.getD_eq_getElem?_getD, List.getElem?_modify, Slot.mk.injEq]
  by_cases here : cell' = cell
  · subst here
    rw [List.getElem?_eq_getElem known]
    simp [RegistryHandlers.get_put]
  · simp [here, Ne.symm here]

@[simp] theorem length_reinstall :
    (s.reinstall slot f).registries.length = s.registries.length := by
  simp [State.reinstall]

end

/-! ## Tidings -/

/-- What a registry has to tell. -/
inductive Tidings
  | announced (name : UInt32) (interface : String) (version : UInt32)
  | withdrawn (name : UInt32)

namespace Tidings

/-- The place of the handler that is told. -/
def slot (cell : Nat) : Tidings → Slot
  | .announced _ _ _ => ⟨cell, .global⟩
  | .withdrawn _ => ⟨cell, .globalRemove⟩

/-- The global that a handler can bind. -/
def globals (registry : Proxy) : Tidings → List Global
  | .announced name interface version => [{ name, interface, version, registry }]
  | .withdrawn _ => []

/-- What the handler is told. -/
def cause (registry : Proxy) : Tidings → Cause
  | .announced name interface version =>
    .global ({ name, interface, version, registry } : Global).shown
  | .withdrawn name => .removed name

def note : Tidings → Note
  | .announced name interface version => .globalAnnounced name interface version
  | .withdrawn name => .globalRemoved name

end Tidings

/-- The registry that an event is for, by the place of its handlers, and what the event tells. -/
def tidings? (d : Delivery ObjectData) : Option (Nat × Tidings) :=
  match d.data, d.event.opcode.toNat, d.event.args with
  | .registry cell, 0, [.uint name, .str (some interface), .uint version] =>
    some (cell, .announced name interface version)
  | .registry cell, 1, [.uint name] => some (cell, .withdrawn name)
  | _, _, _ => none

section

variable {arg : Argument}

theorem eq_uint_of_kind (kind : ArgKind.uint = arg.kind) : ∃ n, arg = .uint n := by
  cases arg <;> cases kind
  exact ⟨_, rfl⟩

theorem eq_str_of_kind (kind : ArgKind.str = arg.kind) (present : arg.isNull = false) :
    ∃ text, arg = .str (some text) := by
  cases arg with
  | str text =>
    cases text with
    | none => cases present
    | some text => exact ⟨text, rfl⟩
  | _ => cases kind

/-- A registry understands the events of its interface. -/
theorem tidings?_of_registry {d : Delivery ObjectData} {cell : Nat} {spec : MessageSpec}
    (data : d.data = .registry cell)
    (known : Protocol.Core.registry.event? d.event.opcode = some spec)
    (checked : Message.check spec d.event.args = .ok ()) :
    ∃ tidings, tidings? d = some (cell, tidings) := by
  obtain ⟨sig, parsed, length, each⟩ := Message.check_ok checked
  unfold Interface.event? at known
  unfold tidings?
  generalize d.event.opcode.toNat = opcode at known ⊢
  generalize d.event.args = args at length each ⊢
  rw [data]
  -- The interface has two events.  Either way the signature fixes how many arguments there are.
  obtain _ | _ | opcode := opcode
  · cases known
    cases parsed
    obtain _ | ⟨name, _ | ⟨interface, _ | ⟨version, _ | _⟩⟩⟩ := args <;> cases length
    obtain ⟨isName, _, each⟩ := Message.checkEach_cons each
    obtain ⟨isText, present, each⟩ := Message.checkEach_cons each
    obtain ⟨isVersion, _, each⟩ := Message.checkEach_cons each
    obtain ⟨_, rfl⟩ := eq_uint_of_kind isName
    obtain ⟨_, rfl⟩ := eq_str_of_kind isText (by simpa [Message.mayBeNull] using present)
    obtain ⟨_, rfl⟩ := eq_uint_of_kind isVersion
    exact ⟨_, rfl⟩
  · cases known
    cases parsed
    obtain _ | ⟨name, _ | _⟩ := args <;> cases length
    obtain ⟨isName, _, each⟩ := Message.checkEach_cons each
    obtain ⟨_, rfl⟩ := eq_uint_of_kind isName
    exact ⟨_, rfl⟩
  · cases known

end

/-- A handler is called: it leaves its place, and the global it is told of is at hand. -/
def State.begun (s : State) (slot : Slot) (globals : List Global) : State :=
  { s.reinstall slot fun _ => none with globals := globals ++ s.globals }

/-- The call is over and is listed.  The handler is put back, unless there is another one. -/
def State.ended (s : State) (slot : Slot) (h : Handler) (globals : List Global) (cause : Cause)
    (answers : List Answer) : State :=
  { s.reinstall slot (· <|> some h) with
    globals := s.globals.drop globals.length
    frame := { s.frame with
      calls := s.frame.calls.push { label := h.label, cause, actions := answers } } }

section

variable {s : State} {slot other : Slot} {globals : List Global} {h : Handler} {cause : Cause}
  {answers : List Answer}

theorem installed_begun (known : slot.cell < s.registries.length) :
    (s.begun slot globals).installed other = if other = slot then none else s.installed other := by
  change (s.reinstall slot fun _ => none).installed other = _
  rw [installed_reinstall known]

theorem installed_ended (known : slot.cell < s.registries.length) :
    (s.ended slot h globals cause answers).installed other =
      if other = slot then s.installed slot <|> some h else s.installed other := by
  change (s.reinstall slot (· <|> some h)).installed other = _
  rw [installed_reinstall known]

@[simp] theorem length_begun :
    (s.begun slot globals).registries.length = s.registries.length := by
  simp [State.begun]

@[simp] theorem length_ended :
    (s.ended slot h globals cause answers).registries.length = s.registries.length := by
  simp [State.ended]

end

/-- The session once a registry has told what it has to tell. -/
def State.hears (s : State) (act : Act) (k : ConnectionRef) (cell : Nat) (tidings : Tidings)
    (event : QueuedEvent) : State :=
  let registry := s.borrow k (some event.sender)
  let slot := tidings.slot cell
  match s.installed slot with
  | none => s
  | some h =>
    let globals := tidings.globals registry
    let called := (act h.actions).run (s.begun slot globals)
    called.2.ended slot h globals (tidings.cause registry) called.1

section

variable {act : Act} {k : ConnectionRef} {cell : Nat} {event : QueuedEvent}

theorem noting_noting (s : State) (notes more : List Note) :
    (s.noting notes).noting more = s.noting (notes ++ more) := by
  have same : s.frame.notes ++ notes ++ more = s.frame.notes ++ (notes ++ more) :=
    Array.ext' (by simp)
  simp [State.noting, same]

theorem handleGlobal_run {name version : UInt32} {interface : String}
    (args : event.args = [.uint name, .str (some interface), .uint version]) (s : State) :
    ((handleGlobal act k cell event).run s).2 =
      (s.noting [.globalAnnounced name interface version]).hears act k cell
        (.announced name interface version) event := by
  let told := s.noting [.globalAnnounced name interface version]
  change _ = told.hears act k cell _ event
  unfold handleGlobal
  rw [args]
  dsimp only
  rw [run_bind, run_bind, run_bind]
  split
  next empty =>
    have found : told.installed ⟨cell, .global⟩ = none := empty
    simp only [State.hears, Tidings.slot, found]
    rfl
  next h full =>
    have found : told.installed ⟨cell, .global⟩ = some h := full
    simp only [State.hears, Tidings.slot, found, State.ended, Tidings.globals,
      List.length_singleton, List.drop_one]
    rfl

theorem handleGlobalRemove_run {name : UInt32} (args : event.args = [.uint name]) (s : State) :
    ((handleGlobalRemove act cell event).run s).2 =
      (s.noting [.globalRemoved name]).hears act k cell (.withdrawn name) event := by
  let told := s.noting [.globalRemoved name]
  change _ = told.hears act k cell _ event
  unfold handleGlobalRemove
  rw [args]
  dsimp only
  rw [run_bind, run_bind]
  split
  next empty =>
    have found : told.installed ⟨cell, .globalRemove⟩ = none := empty
    simp only [State.hears, Tidings.slot, found]
    rfl
  next h full =>
    have found : told.installed ⟨cell, .globalRemove⟩ = some h := full
    simp only [State.hears, Tidings.slot, found]
    rfl

/-- The note that is made of every event that is handed out. -/
def heard (d : Delivery ObjectData) : Note :=
  .event d.interface.name d.event.sender
    (((d.interface.event? d.event.opcode).map (·.name)).getD "?") d.event.args

theorem deliver_tidings {d : Delivery ObjectData} {tidings : Tidings}
    (brings : tidings? d = some (cell, tidings)) (s : State) :
    ((deliver act k d).run s).2 =
      (s.noting [heard d, tidings.note]).hears act k cell tidings d.event := by
  have noted : s.noting [heard d, tidings.note] = (s.noting [heard d]).noting [tidings.note] :=
    (noting_noting s [heard d] [tidings.note]).symm
  unfold tidings? at brings
  unfold deliver
  rw [run_bind, noted]
  split at brings
  next data opcode args =>
    cases brings
    simp only [data, opcode]
    exact handleGlobal_run args _
  next data opcode args =>
    cases brings
    simp only [data, opcode]
    exact handleGlobalRemove_run args _
  · cases brings

end

/-! ## Tables of handlers -/

/-- The handlers that something attached to an object has for the events of the object. -/
def ObjectData.table (act : Act) (k : ConnectionRef) (event : QueuedEvent) :
    ObjectData → List (SessionM Unit)
  | .listener _ label _ handlers actions =>
    (List.range handlers).map fun index => do
      let resolved := (← get).resolve k event.args
      callHandler act label (.event index event.sender event.opcode event.args resolved) actions
  | .registry cell => [handleGlobal act k cell event, handleGlobalRemove act cell event]
  | .callback cell => [handleDone act cell event]

/-- The event runs the handler that its opcode points to. -/
def Entered (act : Act) (k : ConnectionRef) (d : Delivery ObjectData) : Prop :=
  ∃ handler, (d.data.table act k d.event)[d.event.opcode.toNat]? = some handler ∧
    ∀ s : State, (deliver act k d).run s = handler.run (s.noting [heard d])

section

variable {act : Act} {k : ConnectionRef} {d : Delivery ObjectData}

/-- There is a handler for each opcode that the table reaches. -/
theorem entered_of_lt (within : d.event.opcode.toNat < d.data.handlers) : Entered act k d := by
  unfold Entered deliver
  generalize opcode : d.event.opcode.toNat = index at within
  cases data : d.data with
  | listener context label interface handlers actions =>
    rw [data] at within
    have found : (List.range handlers)[index]? = some index := List.getElem?_range within
    refine ⟨_, by simp only [ObjectData.table, List.getElem?_map, found]; rfl, fun s => ?_⟩
    rw [run_bind]
    simp only [opcode, if_pos (show index < handlers from within)]
    rfl
  | registry cell =>
    rw [data] at within
    obtain _ | _ | index := index
    · refine ⟨handleGlobal act k cell d.event, rfl, fun s => ?_⟩
      rw [run_bind]
      simp only [opcode]
      rfl
    · refine ⟨handleGlobalRemove act cell d.event, rfl, fun s => ?_⟩
      rw [run_bind]
      simp only [opcode]
      rfl
    · exact absurd within (by simp [ObjectData.handlers, Protocol.Core.registry])
  | callback cell =>
    rw [data] at within
    obtain _ | index := index
    · refine ⟨handleDone act cell d.event, rfl, fun s => ?_⟩
      rw [run_bind]
      simp only [opcode]
      rfl
    · exact absurd within (by simp [ObjectData.handlers, Protocol.Core.callback])

end

/-! ## Calls -/

/-- A call of a handler of the application: what it is told, and the steps it runs. -/
structure Invocation where
  label : String
  cause : Cause
  actions : List Step

/-- The slot that an event is for, if it is for a registry. -/
def slot? (d : Delivery ObjectData) : Option Slot :=
  (tidings? d).map fun (cell, tidings) => tidings.slot cell

/-- Whom an event calls. -/
def State.summoned (s : State) (k : ConnectionRef) (d : Delivery ObjectData) : Option Invocation :=
  let event := d.event
  match d.data with
  | .listener _ label _ handlers actions =>
    let index := event.opcode.toNat
    let resolved := s.resolve k event.args
    if index < handlers then
      some ⟨label, .event index event.sender event.opcode event.args resolved, actions⟩
    else none
  | .registry _ =>
    (tidings? d).bind fun (cell, tidings) => (s.installed (tidings.slot cell)).map fun h =>
      ⟨h.label, tidings.cause (s.borrow k (some event.sender)), h.actions⟩
  | .callback cell =>
    match event.opcode.toNat, event.args, (s.callbacks.getD cell {}).done with
    | 0, [.uint value], some (.script h) => some ⟨h.label, .done value, h.actions⟩
    | _, _, _ => none

/-- A registry calls the handler in the slot that its event is for. -/
theorem summoned_tidings {s : State} {k : ConnectionRef} {d : Delivery ObjectData} {cell : Nat}
    {tidings : Tidings} (brings : tidings? d = some (cell, tidings)) :
    s.summoned k d = (s.installed (tidings.slot cell)).map fun h =>
      ⟨h.label, tidings.cause (s.borrow k (some d.event.sender)), h.actions⟩ := by
  obtain ⟨other, data⟩ : ∃ other, d.data = .registry other := by
    unfold tidings? at brings
    split at brings
    next data _ _ => exact ⟨_, data⟩
    next data _ _ => exact ⟨_, data⟩
    · cases brings
  simp [State.summoned, data, brings]

/-- Connections and names are the same, and there are as many registries. -/
structure State.Alike (s t : State) : Prop where
  protocol : t.protocol = s.protocol
  channels : t.channels = s.channels
  means : t.means = s.means
  registries : t.registries.length = s.registries.length

/-- The session without the handler in a slot. -/
structure State.Without (s : State) (slot : Option Slot) (t : State) : Prop
    extends s.Alike t where
  calls : t.frame.calls = s.frame.calls
  installed : ∀ other, t.installed other = if slot = some other then none else s.installed other

/-- An event calls a handler.  Its steps are run on the session without it, and the call is listed
    with their answers.  Then the handler is put back, unless there is another one. -/
structure State.Calls (act : Act) (s : State) (k : ConnectionRef) (d : Delivery ObjectData)
    (call : Invocation) (begun left ended : State) : Prop where
  summoned : s.summoned k d = some call
  begins : s.Without (slot? d) begun
  runs : ((act call.actions).run begun).2 = left
  delivers : ((deliver act k d).run s).2 = ended
  ends : left.Alike ended
  lists : ended.frame.calls = left.frame.calls.push
    ⟨call.label, call.cause, ((act call.actions).run begun).1⟩
  putBack : (∀ slot ∈ slot? d, slot.cell < left.registries.length) → ∀ other,
    ended.installed other =
      if slot? d = some other then left.installed other <|> s.installed other
      else left.installed other

section

variable {act : Act} {k : ConnectionRef} {d : Delivery ObjectData} {s : State}

theorem State.Without.noted (notes : List Note) : s.Without none (s.noting notes) :=
  ⟨⟨rfl, rfl, rfl, rfl⟩, rfl, fun _ => rfl⟩

theorem handleDone_run {cell : Nat} {event : QueuedEvent} {value : UInt32}
    (args : event.args = [.uint value]) :
    (handleDone act cell event).run s =
      let taken : State :=
        { s with callbacks := s.callbacks.modify cell fun c => { c with done := none } }
      match (s.callbacks.getD cell {}).done with
      | none => ((), taken)
      | some (.script h) => (callHandler act h.label (.done value) h.actions).run taken
      | some .signal =>
        (modifyCallback cell fun c => { c with signalled := true }).run taken := by
  unfold handleDone
  rw [args]
  dsimp only
  rw [run_bind, run_bind]
  change (match (s.callbacks.getD cell {}).done with
    | none => _
    | some (.script _) => _
    | some .signal => _ : SessionM Unit).run _ = _
  split <;> rfl

theorem slot?_listener {context : ContextKind} {label interface : String} {handlers : Nat}
    {actions : List Step} (data : d.data = .listener context label interface handlers actions) :
    slot? d = none := by
  simp [slot?, tidings?, data]

theorem slot?_callback {cell : Nat} (data : d.data = .callback cell) : slot? d = none := by
  simp [slot?, tidings?, data]

theorem deliver_listener {context : ContextKind} {label interface : String} {handlers : Nat}
    {actions : List Step} (data : d.data = .listener context label interface handlers actions) :
    (deliver act k d).run s =
      let index := d.event.opcode.toNat
      if index < handlers then
        (callHandler act label (.event index d.event.sender d.event.opcode d.event.args
          (s.resolve k d.event.args)) actions).run (s.noting [heard d])
      else (addNote (.noHandler d.event.opcode interface)).run (s.noting [heard d]) := by
  unfold deliver
  rw [run_bind]
  simp only [data]
  by_cases within : d.event.opcode.toNat < handlers
  · rw [if_pos within, if_pos within, run_bind]
    rfl
  · rw [if_neg within, if_neg within]
    rfl

/-- A registry does not understand the event. -/
theorem deliver_odd {cell : Nat} (data : d.data = .registry cell) (odd : tidings? d = none) :
    s.Without none ((deliver act k d).run s).2 := by
  unfold tidings? at odd
  unfold deliver
  rw [run_bind]
  generalize d.event.opcode.toNat = opcode at odd ⊢
  simp only [data] at odd ⊢
  obtain _ | _ | opcode := opcode
  · change s.Without none ((handleGlobal act k cell d.event).run (s.noting [heard d])).2
    unfold handleGlobal
    split
    next args => simp [args] at odd
    · exact ⟨⟨rfl, rfl, rfl, rfl⟩, rfl, fun _ => rfl⟩
  · change s.Without none ((handleGlobalRemove act cell d.event).run (s.noting [heard d])).2
    unfold handleGlobalRemove
    split
    next args => simp [args] at odd
    · exact ⟨⟨rfl, rfl, rfl, rfl⟩, rfl, fun _ => rfl⟩
  · exact ⟨⟨rfl, rfl, rfl, rfl⟩, rfl, fun _ => rfl⟩

/-- A callback is told something else than that it is done. -/
theorem deliver_late {cell : Nat} (data : d.data = .callback cell)
    (late : ¬ (d.event.opcode.toNat = 0 ∧ ∃ value, d.event.args = [.uint value])) :
    s.Without none ((deliver act k d).run s).2 := by
  unfold deliver
  rw [run_bind]
  generalize d.event.opcode.toNat = opcode at late ⊢
  simp only [data]
  obtain _ | opcode := opcode
  · change s.Without none ((handleDone act cell d.event).run (s.noting [heard d])).2
    unfold handleDone
    split
    next value args => exact absurd ⟨rfl, value, args⟩ late
    · exact ⟨⟨rfl, rfl, rfl, rfl⟩, rfl, fun _ => rfl⟩
  · exact ⟨⟨rfl, rfl, rfl, rfl⟩, rfl, fun _ => rfl⟩

theorem deliver_done {cell : Nat} {value : UInt32} (data : d.data = .callback cell)
    (opcode : d.event.opcode.toNat = 0) (args : d.event.args = [.uint value]) :
    (deliver act k d).run s =
      let taken : State := { s.noting [heard d] with
        callbacks := s.callbacks.modify cell fun c => { c with done := none } }
      match (s.callbacks.getD cell {}).done with
      | none => ((), taken)
      | some (.script h) => (callHandler act h.label (.done value) h.actions).run taken
      | some .signal =>
        (modifyCallback cell fun c => { c with signalled := true }).run taken := by
  have done : (handleDone act cell d.event).run (s.noting [heard d]) = _ := handleDone_run args
  unfold deliver
  rw [run_bind]
  simp only [data, opcode]
  exact done

variable (act) in
/-- Nobody is called. -/
theorem deliver_silent (nobody : s.summoned k d = none) :
    s.Without none ((deliver act k d).run s).2 := by
  unfold State.summoned at nobody
  cases data : d.data with
  | listener context label interface handlers actions =>
    simp only [data, ite_eq_right_iff, reduceCtorEq, imp_false] at nobody
    rw [deliver_listener data]
    dsimp only
    rw [if_neg nobody]
    exact ⟨⟨rfl, rfl, rfl, rfl⟩, rfl, fun _ => rfl⟩
  | registry cell =>
    simp only [data] at nobody
    cases brings : tidings? d with
    | none => exact deliver_odd data brings
    | some tidings =>
      obtain ⟨cell', tidings⟩ := tidings
      simp only [brings, Option.bind_some, Option.map_eq_none_iff] at nobody
      have empty : (s.noting [heard d, tidings.note]).installed (tidings.slot cell') = none :=
        nobody
      rw [deliver_tidings brings, State.hears, empty]
      exact .noted _
  | callback cell =>
    simp only [data] at nobody
    by_cases understood : d.event.opcode.toNat = 0 ∧ ∃ value, d.event.args = [.uint value]
    · obtain ⟨opcode, value, args⟩ := understood
      rw [deliver_done data opcode args]
      simp only [opcode, args] at nobody ⊢
      split
      · exact ⟨⟨rfl, rfl, rfl, rfl⟩, rfl, fun _ => rfl⟩
      next set =>
        rw [set] at nobody
        cases nobody
      · exact ⟨⟨rfl, rfl, rfl, rfl⟩, rfl, fun _ => rfl⟩
    · exact deliver_late data understood

/-- A call that leaves the slots of registries alone. -/
theorem State.Calls.other {call : Invocation} {begun : State}
    (summoned : s.summoned k d = some call) (nowhere : slot? d = none)
    (begins : s.Without none begun)
    (delivers : ((deliver act k d).run s).2 =
      ((callHandler act call.label call.cause call.actions).run begun).2) :
    ∃ left ended, State.Calls act s k d call begun left ended := by
  refine ⟨_, _, summoned, nowhere ▸ begins, rfl, rfl, ?_, ?_, ?_⟩
  · rw [delivers]
    exact ⟨rfl, rfl, rfl, rfl⟩
  · rw [delivers]
    rfl
  · intro _ other
    rw [nowhere, delivers]
    rfl

/-- A registry calls the handler in a slot. -/
theorem State.Calls.registry {cell : Nat} {tidings : Tidings} {h : Handler}
    (brings : tidings? d = some (cell, tidings))
    (found : s.installed (tidings.slot cell) = some h)
    (summoned : s.summoned k d =
      some ⟨h.label, tidings.cause (s.borrow k (some d.event.sender)), h.actions⟩) :
    ∃ begun left ended, State.Calls act s k d
      ⟨h.label, tidings.cause (s.borrow k (some d.event.sender)), h.actions⟩ begun left ended := by
  let told := s.noting [heard d, tidings.note]
  let registry := s.borrow k (some d.event.sender)
  let begun := told.begun (tidings.slot cell) (tidings.globals registry)
  let left := ((act h.actions).run begun).2
  have isSlot : slot? d = some (tidings.slot cell) := by simp [slot?, brings]
  have there : told.installed (tidings.slot cell) = some h := found
  have ended : ((deliver act k d).run s).2 = left.ended (tidings.slot cell) h
      (tidings.globals registry) (tidings.cause registry) ((act h.actions).run begun).1 := by
    rw [deliver_tidings brings, State.hears, there]
    rfl
  refine ⟨begun, left, _, summoned, ⟨⟨rfl, rfl, rfl, length_begun⟩, rfl, ?_⟩, rfl, ended, ?_, rfl,
    ?_⟩
  · intro other
    rw [installed_begun (lt_of_installed there), isSlot]
    simp only [Option.some.injEq, eq_comm]
    rfl
  · exact ⟨rfl, rfl, rfl, length_ended⟩
  · intro still other
    rw [installed_ended (still _ (by simp [isSlot])), isSlot]
    by_cases same : other = tidings.slot cell
    · rw [same, if_pos rfl, if_pos rfl, found]
    · rw [if_neg same, if_neg (by simpa using Ne.symm same)]

variable (act) in
theorem deliver_calls {call : Invocation} (summoned : s.summoned k d = some call) :
    ∃ begun left ended, State.Calls act s k d call begun left ended := by
  have calls := summoned
  unfold State.summoned at calls
  cases data : d.data with
  | listener context label interface handlers actions =>
    simp only [data, Option.ite_none_right_eq_some, Option.some.injEq] at calls
    obtain ⟨within, rfl⟩ := calls
    refine ⟨_, State.Calls.other summoned (slot?_listener data) (.noted [heard d]) ?_⟩
    rw [deliver_listener data]
    dsimp only
    rw [if_pos within]
  | registry cell =>
    simp only [data, Option.bind_eq_some_iff, Option.map_eq_some_iff] at calls
    obtain ⟨⟨cell', tidings⟩, brings, h, found, rfl⟩ := calls
    exact State.Calls.registry brings found summoned
  | callback cell =>
    simp only [data] at calls
    split at calls
    next opcode args set =>
      obtain rfl := Option.some.inj calls
      have taken : s.Without none { s.noting [heard d] with
          callbacks := s.callbacks.modify cell fun c => { c with done := none } } :=
        ⟨⟨rfl, rfl, rfl, rfl⟩, rfl, fun _ => rfl⟩
      refine ⟨_, State.Calls.other summoned (slot?_callback data) taken ?_⟩
      rw [deliver_done data opcode args]
      simp only [set]
    · cases calls

end

end Wayland.Session
