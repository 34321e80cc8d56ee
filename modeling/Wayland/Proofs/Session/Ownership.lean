import Mathlib.Data.List.Perm.Basic
import Wayland.Proofs.Client.Possession
import Wayland.Proofs.Session.Outcomes

/-! # Proxies that own objects

An application holds proxies.  They come from creating, adopting and borrowing objects, they are
taken over by one another, they make requests, and they go away.  Meanwhile the compositor sends
what it likes, and the connection may be closed.  `Holding` is a session with one connection and
all proxies that exist; a `Deed` is something that happens to it.

Each deed is a `Client.Dealing` of the connection with its owners (`Holding.Rooted.dealing`), so
what holds of dealings holds of proxies: every object has one owner at most, and an owner's object
is alive as long as the owner is (`objects_have_one_owner`).
-/

namespace Wayland.Session

open Client (Action Connection Custody Dealing Logged Note ObjectKey ObjectRef Request accepted
  displayId)

/-- The object that a proxy owns. -/
def Proxy.owned? (p : Proxy) : Option ObjectKey :=
  if p.owning then p.handle.map (·.object.key) else none

theorem Proxy.owned?_some {p : Proxy} {key : ObjectKey} : p.owned? = some key ↔
    p.owning = true ∧ ∃ handle, p.handle = some handle ∧ handle.object.key = key := by
  simp [owned?]

/-- A session with one connection, and all proxies that exist. -/
structure Holding where
  state : State
  proxies : List Proxy

/-- Something that happens to a connection and the proxies of its objects.  Proxies that make
    requests or objects may be any; those that go away or are taken over are meant by their place
    among all proxies. -/
inductive Deed
  | create (factory : Proxy) (interface : Interface) (version : Option UInt32)
  | adopt (id : ObjectId) (interface : Interface)
  | borrow (id : Option ObjectId)
  /-- A proxy that stands for nothing. -/
  | null (owning : Bool)
  | marshal (sender : Proxy) (opcode : UInt16) (args : List Argument)
  | take (place : Nat)
  | destroy (place : Nat)
  | destroyWithRequest (place : Nat) (opcode : UInt16) (args : List Argument)
  | drop (place : Nat)
  /-- Whatever else is done to the connection: events arrive or are dispatched, queues and
      listeners come and go. -/
  | other (action : Action ObjectData) (apart : action.concernsOwner = false)
  /-- The compositor reads, writes or closes its end of the socket. -/
  | socket (link : Link)
  /-- Somebody keeps the connection alive under a name, closed or not. -/
  | hold (name : String)
  | letGo (name : String)
  /-- The display is destroyed. -/
  | close

/-- The request that a proxy has made, by the result that it got. -/
def State.sent? (s : State) (p : Proxy) (opcode : UInt16) (args : List Argument) (final : Bool) :
    Except StepError Unit → Option Request
  | .ok () =>
    (p.handle.filter fun h => s.keeps h.connection).map fun h => ⟨h.object, opcode, args, final⟩
  | .error _ => none

theorem State.sent?_ok {s : State} {p : Proxy} {h : Handle} (held : p.handle = some h)
    (kept : s.keeps h.connection = true) (opcode : UInt16) (args : List Argument) (final : Bool) :
    s.sent? p opcode args final (.ok ()) = some ⟨h.object, opcode, args, final⟩ := by
  simp [sent?, held, kept]

namespace Holding

/-- The session that scripts start with; nobody holds any proxy. -/
def start (protocol : Protocol) : Holding := ⟨State.start protocol, []⟩

def connection (h : Holding) : Connection ObjectData := (h.state.channel 0).connection

/-- The objects that proxies own, once for each of them. -/
def owned (h : Holding) : List ObjectKey := h.proxies.filterMap Proxy.owned?

/-- There is a new proxy, if the computation that makes it succeeds. -/
def gain (h : Holding) : Except StepError Proxy × State → Holding
  | (.ok p, state) => ⟨state, p :: h.proxies⟩
  | (.error _, state) => { h with state }

/-- Something happens to the proxy at a place; what `f` gives comes in its place. -/
def replace (h : Holding) (place : Nat) (f : Proxy → Option Request × State × List Proxy) :
    Option Request × Holding :=
  match h.proxies[place]? with
  | none => (none, h)
  | some p =>
    let (request, state, proxies) := f p
    (request, ⟨state, proxies ++ h.proxies.eraseIdx place⟩)

/-- Does what a deed says.  The request that was accepted, if there was one, comes with it. -/
def perform (h : Holding) : Deed → Option Request × Holding
  | .create factory interface (some version) =>
    (none, h.gain (h.state.outcome (factory.createVersioned interface version)))
  | .create factory interface none => (none, h.gain (h.state.outcome (factory.create interface)))
  | .adopt id interface => (none, h.gain (h.state.outcome (adoptObject 0 id interface)))
  | .borrow id => (none, { h with proxies := h.state.borrow 0 id :: h.proxies })
  | .null owning => (none, { h with proxies := { owning } :: h.proxies })
  | .marshal sender opcode args =>
    let (result, state) := h.state.outcome (sender.marshal opcode args)
    (h.state.sent? sender opcode args false result, { h with state })
  | .take place => h.replace place fun p => (none, h.state, [p, { p with handle := none }])
  | .destroy place =>
    h.replace place fun p =>
      let (p, state) := p.destroy.run h.state
      (none, state, [p])
  | .destroyWithRequest place opcode args =>
    h.replace place fun p =>
      if p.owning then
        let ((result, left), state) := (p.destroyWithRequest opcode args).run h.state
        (h.state.sent? p opcode args true result, state, [left])
      else (none, h.state, [p])
  | .drop place => h.replace place fun p => (none, (p.destroy.run h.state).2, [])
  | .other action _ =>
    ((h.connection.step action).accepted?,
      { h with state := ((onConnection 0 (·.perform action)).run h.state).2 })
  | .socket link =>
    (none, { h with state := h.state.putChannel 0 { h.state.channel 0 with link } [] })
  | .hold name =>
    match (h.state.displays.find? "d").bind Display.connection with
    | some connection =>
      (none, { h with state := { h.state with held := h.state.held.insert name connection } })
    | none => (none, h)
  | .letGo name => (none, { h with state := { h.state with held := h.state.held.erase name } })
  | .close =>
    match h.state.displays.find? "d" with
    | some d =>
      let (d, state) := d.destroy.run h.state
      (none, { h with state := { state with displays := state.displays.insert "d" d } })
    | none => (none, h)

end Holding

/-- A deed that was done. -/
structure Turn where
  before : Holding
  deed : Deed
  /-- The request that was accepted. -/
  request? : Option Request
  after : Holding

/-- The object whose owner gave it up. -/
def Turn.released? (t : Turn) : Option ObjectKey :=
  match t.deed with
  | .destroy place | .destroyWithRequest place _ _ | .drop place =>
    t.before.proxies[place]?.bind Proxy.owned?
  | _ => none

namespace Holding

/-- Does a deed. -/
def turn (h : Holding) (deed : Deed) : Turn where
  before := h
  deed := deed
  request? := (h.perform deed).1
  after := (h.perform deed).2

def trace : Holding → List Deed → List Turn
  | _, [] => []
  | h, deed :: deeds => h.turn deed :: trace (h.turn deed).after deeds

def run : Holding → List Deed → Holding
  | h, [] => h
  | h, deed :: deeds => run (h.turn deed).after deeds

end Holding

/-! ## Sessions with one connection -/

/-- There is one connection.  Its display keeps it alive until it is closed. -/
structure State.Rooted (s : State) : Prop where
  single : s.channels.length = 1
  display : ∃ d, s.displays.entries = [("d", d)] ∧
    (d.connection = some 0 ∨ d.connection = none ∧ (s.channel 0).connection.closed = true)
  held : ∀ entry ∈ s.held.entries, entry.2 = 0
  intents : ∀ entry ∈ s.intents.entries, entry.2 = 0

namespace State.Rooted

variable {s : State}

theorem start (protocol : Protocol) : (State.start protocol).Rooted where
  single := rfl
  display := ⟨_, rfl, .inl rfl⟩
  held := nofun
  intents := nofun

theorem eq_zero (rooted : s.Rooted) {connection : ConnectionRef}
    (kept : s.keeps connection = true) : connection = 0 := by
  obtain ⟨d, displays, live⟩ := rooted.display
  simp only [State.keeps, Names.any, displays, List.any_cons, List.any_nil, Bool.or_false,
    Bool.or_eq_true, beq_iff_eq, List.any_eq_true] at kept
  obtain (shown | ⟨entry, mem, same⟩) | ⟨entry, mem, same⟩ := kept
  · obtain known | ⟨destroyed, _⟩ := live
    · rw [known] at shown
      exact (Option.some.inj shown).symm
    · rw [destroyed] at shown
      cases shown
  · exact same ▸ rooted.held entry mem
  · exact same ▸ rooted.intents entry mem

theorem keeps (rooted : s.Rooted) (isOpen : (s.channel 0).connection.closed = false) :
    s.keeps 0 = true := by
  obtain ⟨d, displays, known | ⟨_, closed⟩⟩ := rooted.display
  · simp [State.keeps, Names.any, displays, known]
  · rw [closed] at isOpen
    cases isOpen

theorem channel_putChannel (rooted : s.Rooted) (channel : Channel) (notes : List Note) :
    (s.putChannel 0 channel notes).channel 0 = channel := by
  simp [State.putChannel, State.channel, List.getD_eq_getElem?_getD, rooted.single]

theorem putChannel (rooted : s.Rooted) {channel : Channel} (notes : List Note)
    (stays : (s.channel 0).connection.closed = true → channel.connection.closed = true) :
    (s.putChannel 0 channel notes).Rooted where
  single := by simpa [State.putChannel] using rooted.single
  display := by
    obtain ⟨d, displays, live⟩ := rooted.display
    refine ⟨d, displays, live.imp_right (And.imp_right ?_)⟩
    rw [rooted.channel_putChannel]
    exact stays
  held := rooted.held
  intents := rooted.intents

end State.Rooted

/-! ## What the calls of an application come to -/

section

variable {s : State}

/-- A request that is refused leaves the connection as it is. -/
theorem Channel.sendRequest_value (channel : Channel) (o : ObjectRef) (opcode : UInt16)
    (args : List Argument) (final : Bool) :
    let step := channel.connection.step (.request o opcode args final channel.link.sendOutcomes)
    (∃ cause, (channel.sendRequest o opcode args final).value = (.error cause, channel)) ∨
      step.accepted? = some ⟨o, opcode, args, final⟩ ∧
        ∃ link, (channel.sendRequest o opcode args final).value =
          (.ok (), { connection := step.after, link }) := by
  intro step
  obtain ⟨cause, value⟩ | ⟨_, _, _, used, _, _, _, _, _, value⟩ :=
    channel.connection.sendRequest_value o opcode args final channel.link.sendOutcomes
  · exact .inl ⟨cause, by simp [Channel.sendRequest, value, Link.carry]⟩
  · right
    simp only [Client.Step.accepted?, step, Channel.sendRequest, Connection.step,
      Connection.perform, Logged.value_bind, Logged.value_pure, value, Client.refusal]
    exact ⟨trivial, _, rfl⟩

/-- A computation either fails and leaves the session as it is, or it gives an owning proxy of an
    object and the connection is what `made` says. -/
def State.Makes (s : State) (outcome : Except StepError Proxy × State)
    (made : ObjectRef → Connection ObjectData → Prop) : Prop :=
  (∃ cause, outcome = (.error cause, s)) ∨
    ∃ o c, made o c ∧ outcome = (.ok { handle := some ⟨0, o⟩, owning := true },
      s.putChannel 0 { s.channel 0 with connection := c } [])

theorem createVersioned_makes (rooted : s.Rooted) (factory : Proxy) (interface : Interface)
    (version : UInt32) :
    s.Makes (s.outcome (factory.createVersioned interface version)) fun o c =>
      ∃ maker version, (s.channel 0).connection.createObject maker interface version =
        .ok (o, c) := by
  unfold Proxy.createVersioned
  obtain ⟨⟨cause, failed⟩, _⟩ | ⟨h, _, kept, live⟩ := live_cases s factory
  · exact .inl ⟨cause, outcome_bind_error failed⟩
  · rw [outcome_bind_ok live, outcome_bind, outcome_tryConnection, rooted.eq_zero kept]
    dsimp only [Logged.value_pure, Logged.notes_pure]
    cases created : (s.channel 0).connection.createObject h.object interface version with
    | error cause => exact .inl ⟨.client cause, by simp⟩
    | ok result => exact .inr ⟨result.1, result.2, ⟨h.object, version, created⟩, rfl⟩

theorem create_makes (rooted : s.Rooted) (factory : Proxy) (interface : Interface) :
    s.Makes (s.outcome (factory.create interface)) fun o c =>
      ∃ maker version, (s.channel 0).connection.createObject maker interface version =
        .ok (o, c) := by
  unfold Proxy.create
  rw [outcome_bind, outcome_get]
  dsimp only
  cases s.valid? factory with
  | none => exact .inl ⟨_, rfl⟩
  | some h => exact createVersioned_makes rooted factory interface h.object.version

theorem adoptObject_makes (s : State) (id : ObjectId) (interface : Interface) :
    s.Makes (s.outcome (adoptObject 0 id interface)) fun o c =>
      (s.channel 0).connection.adoptObject id interface = .ok (o, c) := by
  unfold adoptObject
  rw [outcome_bind, outcome_tryConnection]
  dsimp only [Logged.value_pure, Logged.notes_pure]
  cases (s.channel 0).connection.adoptObject id interface with
  | error cause => exact .inl ⟨.client cause, by simp⟩
  | ok result => exact .inr ⟨result.1, result.2, rfl, rfl⟩

/-- There is nothing to make a request of; or the request is refused, and the object is destroyed
    all the same; or the request is accepted. -/
theorem destroyWithRequest_cases (s : State) (p : Proxy) (opcode : UInt16) (args : List Argument) :
    (p.handle.filter fun h => s.keeps h.connection) = none ∧
      (p.destroyWithRequest opcode args).run s =
        ((.ok (), (p.destroy.run s).1), (p.destroy.run s).2) ∨
    ∃ h, p.handle = some h ∧ s.keeps h.connection = true ∧
      ((∃ cause notes,
        (p.destroyWithRequest opcode args).run s =
          let s := s.putChannel h.connection (s.channel h.connection) notes
          ((.error cause, (p.destroy.run s).1), (p.destroy.run s).2)) ∨
      let channel := s.channel h.connection
      let step := channel.connection.step
        (.request h.object opcode args true channel.link.sendOutcomes)
      step.accepted? = some ⟨h.object, opcode, args, true⟩ ∧
        ∃ link notes, (p.destroyWithRequest opcode args).run s =
          ((.ok (), { p with handle := none }),
            s.putChannel h.connection { connection := step.after, link } notes)) := by
  unfold Proxy.destroyWithRequest
  rw [run_bind, run_outcome]
  obtain ⟨⟨cause, failed⟩, unused⟩ | ⟨h, held, kept, live⟩ := live_cases s p
  · rw [failed]
    exact .inl ⟨unused, rfl⟩
  · right
    refine ⟨h, held, kept, ?_⟩
    rw [live]
    dsimp only
    rw [run_bind, run_outcome, outcome_tryChannel]
    obtain ⟨cause, value⟩ | ⟨made, link, value⟩ :=
      (s.channel h.connection).sendRequest_value h.object opcode args true
    · rw [value]
      exact .inl ⟨_, _, rfl⟩
    · rw [value]
      exact .inr ⟨made, link, _, rfl⟩

theorem find?_display {d : Display} (displays : s.displays.entries = [("d", d)]) :
    s.displays.find? "d" = some d := by
  simp [Names.find?, displays]

end

/-! ## Deeds are dealings -/

/-- The place of a proxy does not matter. -/
theorem owned_perm {proxies proxies' : List Proxy} (same : proxies.Perm proxies') :
    (proxies.filterMap Proxy.owned?).Perm (proxies'.filterMap Proxy.owned?) :=
  same.filterMap _

theorem owned_of_idle {left rest : List Proxy} (idle : ∀ p ∈ left, p.handle = none) :
    (left ++ rest).filterMap Proxy.owned? = rest.filterMap Proxy.owned? := by
  have nothing : left.filterMap Proxy.owned? = [] := by
    rw [List.filterMap_eq_nil_iff]
    intro p mem
    simp [Proxy.owned?, idle p mem]
  rw [List.filterMap_append, nothing, List.nil_append]

namespace Holding

/-- All proxies are of the one connection that there is. -/
structure Rooted (h : Holding) : Prop where
  state : h.state.Rooted
  handles : ∀ p ∈ h.proxies, ∀ handle, p.handle = some handle → handle.connection = 0

/-- One holding comes from another by a dealing of the connection with its owners. -/
def Deals (h : Holding) (released : Option ObjectKey) (request : Option Request) (h' : Holding) :
    Prop :=
  h'.Rooted ∧ Dealing h.connection h.owned released request h'.connection h'.owned

variable {h h' : Holding} {released : Option ObjectKey} {request : Option Request}

namespace Rooted

theorem putChannel {channel : Channel} {proxies : List Proxy} (rooted : h.Rooted)
    (notes : List Note)
    (handles : ∀ p ∈ proxies, ∀ handle, p.handle = some handle → handle.connection = 0)
    (dealing : Dealing h.connection h.owned released request channel.connection
      (proxies.filterMap Proxy.owned?)) :
    h.Deals released request ⟨h.state.putChannel 0 channel notes, proxies⟩ := by
  refine ⟨⟨rooted.state.putChannel notes dealing.closed, handles⟩, ?_⟩
  unfold connection
  rw [rooted.state.channel_putChannel]
  exact dealing

theorem proxies {proxies : List Proxy} (rooted : h.Rooted)
    (handles : ∀ p ∈ proxies, ∀ handle, p.handle = some handle → handle.connection = 0)
    (dealing : Dealing h.connection h.owned released request h.connection
      (proxies.filterMap Proxy.owned?)) :
    h.Deals released request { h with proxies } :=
  ⟨⟨rooted.state, handles⟩, dealing⟩

theorem gain {outcome : Except StepError Proxy × State}
    {made : ObjectRef → Connection ObjectData → Prop} (rooted : h.Rooted)
    (makes : h.state.Makes outcome made)
    (deals : ∀ o c, made o c → Dealing h.connection h.owned none none c (o.key :: h.owned)) :
    h.Deals none none (h.gain outcome) := by
  obtain ⟨cause, rfl⟩ | ⟨o, c, created, rfl⟩ := makes
  · exact ⟨rooted, .idle .rfl⟩
  · refine rooted.putChannel [] ?_ (deals o c created)
    intro p mem handle held
    obtain rfl | old := List.mem_cons.1 mem
    · cases held
      rfl
    · exact rooted.handles p old handle held

/-- What happens to the proxy at a place, wherever that is. -/
theorem replace {f : Proxy → Option Request × State × List Proxy}
    {gives : Proxy → Option ObjectKey} (rooted : h.Rooted) (place : Nat)
    (each : ∀ p rest, h.proxies.Perm (p :: rest) →
      h.Deals (gives p) (f p).1 ⟨(f p).2.1, (f p).2.2 ++ rest⟩) :
    h.Deals (h.proxies[place]?.bind gives) (h.replace place f).1 (h.replace place f).2 := by
  unfold Holding.replace
  cases found : h.proxies[place]? with
  | none => exact ⟨rooted, .idle .rfl⟩
  | some p =>
    obtain ⟨bound, rfl⟩ := List.getElem?_eq_some_iff.1 found
    exact each _ _ (List.getElem_cons_eraseIdx_perm bound).symm

theorem handles_rest {p : Proxy} {left rest : List Proxy} (rooted : h.Rooted)
    (parts : h.proxies.Perm (p :: rest)) (idle : ∀ q ∈ left, q.handle = none) :
    ∀ q ∈ left ++ rest, ∀ handle, q.handle = some handle → handle.connection = 0 := by
  intro q mem handle held
  obtain isLeft | isRest := List.mem_append.1 mem
  · rw [idle q isLeft] at held
    cases held
  · exact rooted.handles q (parts.mem_iff.2 (List.mem_cons_of_mem p isRest)) handle held

/-- A proxy that has lost its connection has lost a closed one. -/
theorem closed_of_lost {p : Proxy} {handle : Handle} (rooted : h.Rooted)
    (member : p ∈ h.proxies) (held : p.handle = some handle)
    (lost : h.state.keeps handle.connection = false) : h.connection.closed = true := by
  cases closed : h.connection.closed with
  | true => rfl
  | false =>
    rw [rooted.handles p member handle held, rooted.state.keeps closed] at lost
    cases lost

theorem destroy {p : Proxy} {left rest : List Proxy} (rooted : h.Rooted)
    (parts : h.proxies.Perm (p :: rest)) (idle : ∀ q ∈ left, q.handle = none) :
    h.Deals p.owned? none ⟨(p.destroy.run h.state).2, left ++ rest⟩ := by
  have handles := rooted.handles_rest parts idle
  have owners := owned_perm parts
  obtain ⟨gone, ran⟩ | ⟨handle, notes, held, owning, kept, ran⟩ := destroy_cases h.state p
  · rw [ran]
    refine rooted.proxies handles ?_
    rw [owned_of_idle idle]
    cases owned : p.owned? with
    | none =>
      rw [List.filterMap_cons_none owned] at owners
      exact .idle owners
    | some key =>
      -- An owner that has nothing to release has lost its connection.
      obtain ⟨owning, handle, held, rfl⟩ := Proxy.owned?_some.1 owned
      rw [List.filterMap_cons_some owned] at owners
      exact .abandon (rooted.closed_of_lost (parts.mem_iff.2 List.mem_cons_self) held
        (gone handle held owning)) owners
  · have owned : p.owned? = some handle.object.key :=
      Proxy.owned?_some.2 ⟨owning, handle, held, rfl⟩
    have atRoot := rooted.state.eq_zero kept
    rw [ran, atRoot, owned]
    rw [List.filterMap_cons_some owned] at owners
    refine rooted.putChannel notes handles ?_
    rw [owned_of_idle idle]
    exact .release owners

theorem destroyWithRequest {p : Proxy} {rest : List Proxy} (rooted : h.Rooted)
    (parts : h.proxies.Perm (p :: rest)) (owning : p.owning = true) (opcode : UInt16)
    (args : List Argument) :
    let ran := (p.destroyWithRequest opcode args).run h.state
    h.Deals p.owned? (h.state.sent? p opcode args true ran.1.1) ⟨ran.2, [ran.1.2] ++ rest⟩ := by
  intro ran
  have idle (s : State) : ∀ q ∈ [(p.destroy.run s).1], q.handle = none := by
    simp [destroy_handle]
  obtain ⟨unused, value⟩ |
      ⟨handle, held, kept, ⟨cause, notes, value⟩ | ⟨made, link, notes, value⟩⟩ :=
    destroyWithRequest_cases h.state p opcode args
  · -- There is nothing to make a request of, so the proxy just goes away.
    have silent : h.state.sent? p opcode args true (.ok ()) = none := by
      simp only [State.sent?, unused, Option.map_none]
    simp only [ran, value, silent]
    exact rooted.destroy parts (idle _)
  · -- The request was refused, which leaves nothing but notes.
    have atRoot := rooted.state.eq_zero kept
    rw [atRoot] at value
    simp only [ran, value]
    obtain ⟨noted, _⟩ := rooted.putChannel notes rooted.handles
      (Dealing.idle (c := h.connection) .rfl)
    obtain ⟨after, dealing⟩ := noted.destroy parts (idle _)
    refine ⟨after, ?_⟩
    unfold connection at dealing
    rw [rooted.state.channel_putChannel] at dealing
    exact dealing
  · have atRoot := rooted.state.eq_zero kept
    rw [atRoot] at value made
    have owned : p.owned? = some handle.object.key :=
      Proxy.owned?_some.2 ⟨owning, handle, held, rfl⟩
    have owners := owned_perm parts
    rw [List.filterMap_cons_some owned] at owners
    have left : ∀ q ∈ [{ p with handle := none }], q.handle = none := by simp
    simp only [ran, value, owned, State.sent?_ok held kept]
    refine rooted.putChannel notes (rooted.handles_rest parts left) ?_
    rw [owned_of_idle left]
    exact .finish owners made

theorem take {p : Proxy} {rest : List Proxy} (rooted : h.Rooted)
    (parts : h.proxies.Perm (p :: rest)) :
    h.Deals none none ⟨h.state, [p, { p with handle := none }] ++ rest⟩ := by
  have idle : ∀ q ∈ [{ p with handle := none }], q.handle = none := by simp
  have same : ([p, { p with handle := none }] ++ rest).filterMap Proxy.owned? =
      (p :: rest).filterMap Proxy.owned? := by
    rw [List.cons_append, List.filterMap_cons, owned_of_idle idle, List.filterMap_cons]
  refine rooted.proxies ?_ (same ▸ .idle (owned_perm parts))
  intro q mem
  obtain rfl | later := List.mem_cons.1 mem
  · exact rooted.handles q (parts.mem_iff.2 List.mem_cons_self)
  · exact rooted.handles_rest parts idle q later

theorem perm {proxies : List Proxy} (rooted : h.Rooted) (same : h.proxies.Perm proxies) :
    h.Deals none none { h with proxies } :=
  rooted.proxies (fun p mem => rooted.handles p (same.mem_iff.2 mem)) (.idle (owned_perm same))

/-- A new proxy that owns nothing. -/
theorem cons {p : Proxy} (rooted : h.Rooted) (unowned : p.owned? = none)
    (belongs : ∀ handle, p.handle = some handle → handle.connection = 0) :
    h.Deals none none { h with proxies := p :: h.proxies } := by
  refine rooted.proxies ?_ ?_
  · intro q mem
    obtain rfl | old := List.mem_cons.1 mem
    · exact belongs
    · exact rooted.handles q old
  · rw [List.filterMap_cons_none unowned]
    exact .idle .rfl

theorem marshal (rooted : h.Rooted) (sender : Proxy) (opcode : UInt16) (args : List Argument) :
    let outcome := h.state.outcome (sender.marshal opcode args)
    h.Deals none (h.state.sent? sender opcode args false outcome.1)
      { h with state := outcome.2 } := by
  intro outcome
  obtain ⟨⟨cause, failed⟩, _⟩ | ⟨handle, held, kept, live⟩ := live_cases h.state sender
  · have result : outcome = _ := outcome_bind_error failed
    rw [result]
    exact ⟨rooted, .idle .rfl⟩
  · have result : outcome = _ := outcome_bind_ok live
    rw [outcome_tryChannel, rooted.state.eq_zero kept] at result
    obtain ⟨cause, value⟩ | ⟨made, link, value⟩ :=
      (h.state.channel 0).sendRequest_value handle.object opcode args false
    · rw [result, value]
      exact rooted.putChannel _ rooted.handles (.idle .rfl)
    · rw [result, value]
      simp only [mapError_ok, State.sent?_ok held kept]
      exact rooted.putChannel _ rooted.handles (.work rfl made)

theorem other (rooted : h.Rooted) {action : Action ObjectData}
    (apart : action.concernsOwner = false) :
    h.Deals none (h.connection.step action).accepted?
      { h with state := ((onConnection 0 (·.perform action)).run h.state).2 } := by
  rw [onConnection_run]
  exact rooted.putChannel _ rooted.handles (.work apart rfl)

/-- A change to what keeps the connection alive. -/
theorem keepers (rooted : h.Rooted) {held : Names ConnectionRef}
    (same : ∀ entry ∈ held.entries, entry.2 = 0) :
    h.Deals none none { h with state := { h.state with held } } :=
  ⟨⟨⟨rooted.state.single, rooted.state.display, same, rooted.state.intents⟩, rooted.handles⟩,
    .idle .rfl⟩

theorem hold (rooted : h.Rooted) (name : String) :
    h.Deals none (h.perform (.hold name)).1 (h.perform (.hold name)).2 := by
  obtain ⟨d, displays, live⟩ := rooted.state.display
  simp only [perform, find?_display displays, Option.bind_some]
  obtain known | ⟨destroyed, _⟩ := live
  · rw [known]
    refine rooted.keepers ?_
    intro entry mem
    obtain rfl | old := List.mem_cons.1 mem
    · rfl
    · exact rooted.state.held entry (List.mem_filter.1 old).1
  · rw [destroyed]
    exact ⟨rooted, .idle .rfl⟩

/-- The display has gone. -/
theorem undisplayed {state : State} {d left : Display} (deals : h.Deals none none { h with state })
    (closed : (state.channel 0).connection.closed = true)
    (displays : state.displays.entries = [("d", d)]) (gone : left.connection = none) :
    h.Deals none none
      { h with state := { state with displays := state.displays.insert "d" left } } := by
  obtain ⟨rooted, dealing⟩ := deals
  refine ⟨⟨⟨rooted.state.single, ⟨left, ?_, .inr ⟨gone, closed⟩⟩, rooted.state.held,
    rooted.state.intents⟩, rooted.handles⟩, dealing⟩
  simp [Names.insert, Names.erase, displays]

theorem close (rooted : h.Rooted) :
    h.Deals none (h.perform .close).1 (h.perform .close).2 := by
  obtain ⟨d, displays, known | ⟨destroyed, closed⟩⟩ := rooted.state.display
  · simp only [perform, find?_display displays, display_destroy_run known]
    have closed : (Channel.close (h.state.channel 0)).value.2.connection.closed = true := by
      obtain ⟨closed, value⟩ | ⟨_, _, value⟩ := Connection.close_value h.connection
        (h.state.channel 0).link.sendOutcomes
      · exact (congrArg (·.2.closed) value).trans closed
      · exact congrArg (·.2.closed) value
    have closing : Dealing h.connection h.owned none none
        (h.connection.step (.close (h.state.channel 0).link.sendOutcomes)).after h.owned :=
      .work rfl rfl
    refine undisplayed (rooted.putChannel _ rooted.handles closing) ?_ displays rfl
    rw [rooted.state.channel_putChannel]
    exact closed
  · simp only [perform, find?_display displays, display_destroy_again destroyed]
    exact undisplayed ⟨rooted, .idle .rfl⟩ closed displays rfl

/-- Each deed is a dealing, and all proxies stay with the one connection. -/
theorem dealing (rooted : h.Rooted) (deed : Deed) :
    h.Deals (h.turn deed).released? (h.turn deed).request? (h.turn deed).after := by
  cases deed with
  | create factory interface version =>
    cases version with
    | some version =>
      exact rooted.gain (createVersioned_makes rooted.state factory interface version)
        fun _ _ ⟨_, _, created⟩ => .create created
    | none =>
      exact rooted.gain (create_makes rooted.state factory interface)
        fun _ _ ⟨_, _, created⟩ => .create created
  | adopt id interface =>
    exact rooted.gain (adoptObject_makes h.state id interface) fun _ _ => .adopt
  | borrow id =>
    refine rooted.cons rfl ?_
    intro handle held
    obtain ⟨_, _, rfl⟩ := Option.map_eq_some_iff.1 held
    rfl
  | null owning => exact rooted.cons (by simp [Proxy.owned?]) nofun
  | marshal sender opcode args => exact rooted.marshal sender opcode args
  | take place =>
    have taken : h.Deals (h.proxies[place]?.bind fun _ => none) (h.perform (.take place)).1
        (h.perform (.take place)).2 :=
      rooted.replace place fun p rest parts => rooted.take parts
    have nothing : (h.proxies[place]?.bind fun _ => (none : Option ObjectKey)) = none := by
      cases h.proxies[place]? <;> rfl
    rw [nothing] at taken
    exact taken
  | destroy place =>
    refine rooted.replace place fun p rest parts => ?_
    have idle : ∀ q ∈ [(p.destroy.run h.state).1], q.handle = none := by simp [destroy_handle]
    exact rooted.destroy parts idle
  | destroyWithRequest place opcode args =>
    refine rooted.replace place fun p rest parts => ?_
    by_cases owning : p.owning = true
    · simp only [owning, if_true]
      exact rooted.destroyWithRequest parts owning opcode args
    · have unowned : p.owned? = none := if_neg owning
      simp only [owning, unowned]
      exact rooted.perm parts
  | drop place =>
    refine rooted.replace place fun p rest parts => ?_
    have idle : ∀ q ∈ ([] : List Proxy), q.handle = none := nofun
    exact rooted.destroy parts idle
  | other action apart => exact rooted.other apart
  | socket link => exact rooted.putChannel _ rooted.handles (.idle .rfl)
  | hold name => exact rooted.hold name
  | letGo name =>
    refine rooted.keepers ?_
    intro entry mem
    exact rooted.state.held entry (List.mem_filter.1 mem).1
  | close => exact rooted.close

end Rooted

/-! ## Runs -/

theorem start_rooted (protocol : Protocol) : (start protocol).Rooted := ⟨.start protocol, nofun⟩

theorem custody_run {gone : List ObjectKey} {log : List Request} (rooted : h.Rooted)
    (custody : Custody h.connection h.owned gone log) (deeds : List Deed) :
    (h.run deeds).Rooted ∧
      Custody (h.run deeds).connection (h.run deeds).owned
        (gone ++ (h.trace deeds).filterMap Turn.released?)
        (log ++ (h.trace deeds).filterMap Turn.request?) := by
  induction deeds generalizing h gone log with
  | nil => simpa [run, trace] using ⟨rooted, custody⟩
  | cons deed deeds ih =>
    obtain ⟨after, dealing⟩ := rooted.dealing deed
    have rest := ih after (custody.deal dealing)
    cases gave : (h.turn deed).released? <;> cases asked : (h.turn deed).request? <;>
      simpa [run, trace, gave, asked, List.append_assoc] using rest

/-- What is done to the connection are actions.  They accept the same requests and release what
    owners give up. -/
theorem follows_run (rooted : h.Rooted) (deeds : List Deed) :
    ∃ actions, (h.run deeds).connection = h.connection.run actions ∧
      accepted (h.connection.trace actions) = (h.trace deeds).filterMap Turn.request? ∧
      ((h.connection.trace actions).filterMap Client.Step.released?).Sublist
        ((h.trace deeds).filterMap Turn.released?) := by
  induction deeds generalizing h with
  | nil => exact ⟨[], rfl, rfl, List.Sublist.refl _⟩
  | cons deed deeds ih =>
    obtain ⟨after, dealing⟩ := rooted.dealing deed
    obtain ⟨first, same, made, gave⟩ := dealing.follows
    obtain ⟨rest, same', made', gave'⟩ := ih after
    refine ⟨first ++ rest, ?_, ?_, ?_⟩
    · rw [Connection.run_append, ← same]
      exact same'
    · rw [Connection.trace_append, ← same]
      unfold accepted at made made' ⊢
      rw [List.filterMap_append, made, made']
      cases asked : (h.turn deed).request? <;> simp [trace, asked]
    · rw [Connection.trace_append, ← same, List.filterMap_append]
      have both := gave.append gave'
      cases given : (h.turn deed).released? <;> simpa [trace, given] using both

end Holding

/-- Whatever an application and the compositor do in turn.  As long as the connection is open, an
    owning proxy that stands for something stands for a live object, no two of them own the same
    one, and every live object of the client, apart from the display, has one owner.  No object is
    given up twice, and the connection releases what is given up and nothing else.  Of the requests
    that it accepts, a last request is the last one of its object. -/
theorem objects_have_one_owner (protocol : Protocol) (deeds : List Deed) :
    let start := Holding.start protocol
    let h := start.run deeds
    let released := (start.trace deeds).filterMap Turn.released?
    let requests := (start.trace deeds).filterMap Turn.request?
    (h.connection.closed = false →
      (∀ p ∈ h.proxies, p.owning = true → ∀ handle, p.handle = some handle →
        h.state.valid? p = some handle) ∧
      h.owned.Nodup ∧
      ∀ id entry, h.connection.objects.live? id = some entry → ObjectId.isClient id = true →
        id ≠ displayId → h.owned.count (id, entry.generation) = 1) ∧
    released.Nodup ∧
    (∃ actions, let steps := (Connection.initial protocol).trace actions
      h.connection = (Connection.initial protocol).run actions ∧ accepted steps = requests ∧
        (steps.filterMap Client.Step.released?).Sublist released) ∧
    requests.Pairwise fun r later => r.final = true → later.object.key ≠ r.object.key := by
  intro start h released requests
  have begins : start.Rooted := Holding.start_rooted protocol
  obtain ⟨rooted, custody⟩ := Holding.custody_run begins (Custody.initial protocol) deeds
  -- Present and past owners together have no object twice.
  obtain ⟨distinct, once, _⟩ := List.nodup_append.1 custody.nodup
  refine ⟨fun isOpen => ?_, once, Holding.follows_run begins deeds, custody.last⟩
  have possessed := custody.possessed isOpen
  refine ⟨?_, distinct, ?_⟩
  · intro p mem owning handle held
    have owned : handle.object.key ∈ h.owned :=
      List.mem_filterMap.2 ⟨p, mem, Proxy.owned?_some.2 ⟨owning, handle, held, rfl⟩⟩
    have inUse : h.connection.isValid handle.object = true :=
      Bool.and_eq_true_iff.2 ⟨by rw [isOpen]; rfl, possessed.current owned⟩
    have kept : h.state.keeps 0 = true := rooted.state.keeps isOpen
    unfold State.valid?
    rw [held, Option.filter_some, rooted.handles p mem handle held]
    exact if_pos (Bool.and_eq_true_iff.2 ⟨kept, inUse⟩)
  · intro id entry live client other
    have owned : entry.owned = true := by
      refine Bool.of_not_eq_false fun unowned => ?_
      exact possessed.client id entry.generation client
        (Client.ObjectTable.tenure?_some.2 ⟨entry, live, rfl, unowned⟩)
    have held : (id, entry.generation) ∈ h.owned :=
      (possessed.mem_held id entry.generation).2
        ⟨other, Client.ObjectTable.tenure?_some.2 ⟨entry, live, rfl, owned⟩⟩
    rw [distinct.count, if_pos held]

/-- A giver can be destroyed, and gives. -/
def giver : Interface := ⟨"giver", 1, [⟨"destroy", "", []⟩], [⟨"give", "n", [some 1]⟩]⟩

def gift : Interface := ⟨"gift", 1, [], []⟩

/-- A giver gives and is destroyed, and its number goes to another giver that is destroyed, too.
    Before, the compositor lets go of the number, a borrowing proxy of the giver is destroyed, and
    another proxy takes over; afterwards somebody tries to make a request of the first giver. -/
def givers : List Deed :=
  let stale : Proxy := { handle := some ⟨0, ⟨2, 1, giver, 1⟩⟩, owning := false }
  let arrives (message : Message.Packet) : List Deed :=
    [.other (.prepareRead 0) rfl, .other (.read [.received message.bytes [], .wouldBlock]) rfl]
  [.create displayProxy giver (some 1), .marshal displayProxy 1 [.newId 2]]
    ++ arrives (Message.encode 2 0 [.newId 0xff000000])
    ++ [.other (.next 0) rfl, .adopt 0xff000000 gift]
    ++ arrives (Message.encode displayId 1 [.uint 2])
    ++ [.borrow (some 2), .destroy 0, .take 2, .destroyWithRequest 0 0 [], .marshal stale 0 [],
      .create displayProxy giver none, .marshal displayProxy 1 [.newId 2], .marshal stale 0 [],
      .destroyWithRequest 0 0 []]

/-- The gift is still there, and its owner can use it; each giver got its last request. -/
theorem objects_have_one_owner_givers :
    let start := Holding.start ⟨[giver, gift]⟩
    let h := start.run givers
    let requests := (start.trace givers).filterMap Turn.request?
    let owner : Proxy := { handle := some ⟨0, ⟨0xff000000, 2, gift, 1⟩⟩, owning := true }
    h.connection.closed = false ∧ owner ∈ h.proxies ∧ h.state.valid? owner = owner.handle ∧
    (start.trace givers).filterMap Turn.released? = [(2, 1), (2, 3)] ∧
    requests.map (fun r => (r.object.key, r.final)) =
      [((1, 0), false), ((2, 1), true), ((1, 0), false), ((2, 3), true)] ∧
    requests.Pairwise fun r later => r.final = true → later.object.key ≠ r.object.key := by
  intro start h requests owner
  obtain ⟨whileOpen, _, _, last⟩ := objects_have_one_owner ⟨[giver, gift]⟩ givers
  have isOpen : h.connection.closed = false := by decide +kernel
  have holds : owner ∈ h.proxies := by decide +kernel
  have valid := (whileOpen isOpen).1 owner holds rfl _ rfl
  exact ⟨isOpen, holds, valid, by decide +kernel, by decide +kernel, last⟩

end Wayland.Session
