import Wayland.Proofs.Client.Drafts
import Wayland.Proofs.Session.Courses
import Wayland.Proofs.Session.Ownership

/-! # Creations that come to nothing

An application creates objects and gives them up again, in any order, before it has told the
compositor of them.  `Holding.Drafts` follows such a stretch of a session: the proxies that own
something own drafts.  Once they own nothing, the connection and its socket are as they were, and
only generations have moved on.

Calls that create an object and then fail to tell the compositor of it are such stretches, too:
binding a global, asking for a registry, asking for a callback.
-/

namespace Wayland.Session

open Client (Action Connection Dealing Note ObjectKey ObjectRef Request displayId)

namespace Holding

/-- The session has come from one with the connection and socket `base`, has accepted the requests
    in `log` since, and what its proxies own are drafts. -/
structure Drafts (base : Channel) (log : List Request) (h : Holding) : Prop where
  rooted : h.Rooted
  connection : base.connection.Drafts log h.connection h.owned
  link : log = [] → (h.state.channel 0).link = base.link

namespace Drafts

variable {base : Channel} {log : List Request} {h : Holding} {p : Proxy} {left rest : List Proxy}

theorem putChannel {log' : List Request} {channel : Channel} {proxies : List Proxy}
    {notes : List Note} (drafts : h.Drafts base log)
    (rooted : Rooted ⟨h.state.putChannel 0 channel notes, proxies⟩)
    (connection : base.connection.Drafts log' channel.connection
      (proxies.filterMap Proxy.owned?))
    (link : log' = [] → channel.link = base.link) :
    Drafts base log' ⟨h.state.putChannel 0 channel notes, proxies⟩ := by
  refine ⟨rooted, ?_, ?_⟩
  · unfold Holding.connection
    rw [drafts.rooted.state.channel_putChannel]
    exact connection
  · rw [drafts.rooted.state.channel_putChannel]
    exact link

theorem noted (drafts : h.Drafts base log) (notes : List Note) :
    Drafts base log { h with state := h.state.putChannel 0 (h.state.channel 0) notes } :=
  drafts.putChannel (drafts.rooted.putChannel notes drafts.rooted.handles (.idle .rfl)).1
    drafts.connection drafts.link

/-- The connection and its socket are what they were, whatever else has changed. -/
theorem congr {h' : Holding} (drafts : h.Drafts base log) (rooted : h'.Rooted)
    (channel : h'.state.channel 0 = h.state.channel 0) (owned : h.owned.Perm h'.owned) :
    h'.Drafts base log := by
  refine ⟨rooted, ?_, ?_⟩
  · unfold Holding.connection
    rw [channel]
    exact drafts.connection.perm owned
  · rw [channel]
    exact drafts.link

theorem silent (drafts : h.Drafts base log) :
    h.Drafts base (log ++ (none : Option Request).toList) := by
  rw [Option.toList_none, List.append_nil]
  exact drafts

/-! ## What happens to proxies -/

theorem gain {outcome : Except StepError Proxy × State} {interface : Interface}
    (drafts : h.Drafts base log)
    (makes : h.state.Makes outcome fun o c => ∃ maker version,
      (h.state.channel 0).connection.createObject maker interface version = .ok (o, c)) :
    (h.gain outcome).Drafts base log := by
  have deals {o : ObjectRef} {c : Connection ObjectData}
      (created : ∃ maker version, h.connection.createObject maker interface version = .ok (o, c)) :
      Dealing h.connection h.owned none none c (o.key :: h.owned) := by
    obtain ⟨_, _, created⟩ := created
    exact .create created
  have rooted := (drafts.rooted.gain makes fun _ _ => deals).1
  obtain ⟨cause, rfl⟩ | ⟨o, c, ⟨_, _, created⟩, rfl⟩ := makes
  · exact drafts
  · exact drafts.putChannel rooted (drafts.connection.create created) drafts.link

theorem destroy (drafts : h.Drafts base log) (parts : h.proxies.Perm (p :: rest))
    (idle : ∀ q ∈ left, q.handle = none) :
    Drafts base log ⟨(p.destroy.run h.state).2, left ++ rest⟩ := by
  have rooted := (drafts.rooted.destroy parts idle).1
  have owners := owned_perm parts
  obtain ⟨gone, ran⟩ | ⟨handle, notes, held, owning, kept, ran⟩ := destroy_cases h.state p
  · rw [ran] at rooted ⊢
    refine ⟨rooted, ?_, drafts.link⟩
    unfold Holding.owned
    rw [owned_of_idle idle]
    cases owned : p.owned? with
    | none =>
      rw [List.filterMap_cons_none owned] at owners
      exact drafts.connection.perm owners
    | some key =>
      -- Nothing is released here, so that the draft has to be gone with its connection.
      obtain ⟨owning, handle, held, rfl⟩ := Proxy.owned?_some.1 owned
      exact drafts.connection.abandon (drafts.rooted.closed_of_lost
        (parts.mem_iff.2 List.mem_cons_self) held (gone handle held owning))
  · have owned : p.owned? = some handle.object.key :=
      Proxy.owned?_some.2 ⟨owning, handle, held, rfl⟩
    rw [List.filterMap_cons_some owned] at owners
    rw [ran, drafts.rooted.state.eq_zero kept] at rooted ⊢
    refine drafts.putChannel rooted ?_ drafts.link
    rw [owned_of_idle idle]
    exact drafts.connection.release owners

theorem marshal (drafts : h.Drafts base log) (sender : Proxy) (opcode : UInt16)
    (args : List Argument) :
    let outcome := h.state.outcome (sender.marshal opcode args)
    let request := h.state.sent? sender opcode args false outcome.1
    (∀ r, request = some r → ∀ key ∈ h.owned, ¬ r.Carries key.1) →
      Drafts base (log ++ request.toList) { h with state := outcome.2 } := by
  intro outcome request apart
  have rooted : Rooted { h with state := outcome.2 } :=
    (drafts.rooted.marshal sender opcode args).1
  obtain ⟨⟨cause, failed⟩, _⟩ | ⟨handle, held, kept, live⟩ := live_cases h.state sender
  · have result : outcome = (.error cause, h.state) := outcome_bind_error failed
    have silent : request = none := by simp [request, result, State.sent?]
    rw [silent, result, Option.toList_none, List.append_nil]
    exact drafts
  · have result : outcome = _ := outcome_bind_ok live
    rw [outcome_tryChannel, drafts.rooted.state.eq_zero kept] at result
    obtain ⟨cause, value⟩ | ⟨made, link, value⟩ :=
      (h.state.channel 0).sendRequest_value handle.object opcode args false
    · -- The connection is untouched, but what it says about the refusal is noted.
      have silent : request = none := by simp [request, result, value, State.sent?]
      rw [silent, Option.toList_none, List.append_nil]
      rw [result, value]
      exact drafts.noted _
    · have sent : request = some ⟨handle.object, opcode, args, false⟩ := by
        simp only [request, result, value, mapError_ok, State.sent?_ok held kept]
      rw [sent, Option.toList_some]
      rw [result, value] at rooted ⊢
      refine drafts.putChannel rooted ?_ fun quiet => absurd quiet (by simp)
      exact (h.connection.step_effect _).drafts_announced drafts.connection made rfl
        (apart _ sent)

/-- A last request carries the number of its object, so that it is not accepted here. -/
theorem destroyWithRequest (drafts : h.Drafts base log) (parts : h.proxies.Perm (p :: rest))
    (owning : p.owning = true) (opcode : UInt16) (args : List Argument) :
    let ran := (p.destroyWithRequest opcode args).run h.state
    let request := h.state.sent? p opcode args true ran.1.1
    (∀ r, request = some r → ∀ key ∈ h.owned, ¬ r.Carries key.1) →
      Drafts base (log ++ request.toList) ⟨ran.2, [ran.1.2] ++ rest⟩ := by
  intro ran request apart
  have idle (s : State) : ∀ q ∈ [(p.destroy.run s).1], q.handle = none := by
    simp [destroy_handle]
  obtain ⟨unused, value⟩ |
      ⟨handle, held, kept, ⟨cause, notes, value⟩ | ⟨made, link, notes, value⟩⟩ :=
    destroyWithRequest_cases h.state p opcode args
  · have silent : request = none := by simp only [request, ran, value, State.sent?, unused,
      Option.map_none]
    rw [silent, Option.toList_none, List.append_nil]
    simp only [ran, value]
    exact drafts.destroy parts (idle _)
  · have silent : request = none := by simp only [request, ran, value, State.sent?]
    rw [silent, Option.toList_none, List.append_nil]
    simp only [ran, value]
    rw [drafts.rooted.state.eq_zero kept]
    exact (drafts.noted notes).destroy parts (idle _)
  · have sent : request = some ⟨handle.object, opcode, args, true⟩ := by
      simp only [request, ran, value, State.sent?_ok held kept]
    have owned : handle.object.key ∈ h.owned :=
      List.mem_filterMap.2 ⟨p, parts.mem_iff.2 List.mem_cons_self,
        Proxy.owned?_some.2 ⟨owning, handle, held, rfl⟩⟩
    exact absurd (.inl rfl) (apart _ sent _ owned)

theorem take (drafts : h.Drafts base log) (parts : h.proxies.Perm (p :: rest)) :
    Drafts base log ⟨h.state, [p, { p with handle := none }] ++ rest⟩ := by
  refine drafts.congr (drafts.rooted.take parts).1 rfl ((owned_perm parts).trans (.of_eq ?_))
  simp [Proxy.owned?, Holding.owned, List.filterMap_cons]

theorem shape (drafts : h.Drafts base log) {action : Action ObjectData}
    (apart : action.concernsOwner = false) (shapes : action.Shapes h.owned) :
    Drafts base log { h with state := ((onConnection 0 (·.perform action)).run h.state).2 } := by
  have rooted := (drafts.rooted.other apart).1
  rw [onConnection_run] at rooted ⊢
  exact drafts.putChannel rooted
    ((h.connection.step_effect action).drafts_shaped drafts.connection shapes) drafts.link

/-- A new proxy that owns nothing. -/
theorem cons (drafts : h.Drafts base log) (unowned : p.owned? = none)
    (belongs : ∀ handle, p.handle = some handle → handle.connection = 0) :
    Drafts base log { h with proxies := p :: h.proxies } := by
  refine drafts.congr (drafts.rooted.cons unowned belongs).1 rfl (.of_eq ?_)
  exact (List.filterMap_cons_none unowned).symm

theorem replace {f : Proxy → Option Request × State × List Proxy} (drafts : h.Drafts base log)
    (place : Nat) (each : ∀ p rest, h.proxies.Perm (p :: rest) →
      (h.replace place f).1 = (f p).1 →
        Drafts base (log ++ (f p).1.toList) ⟨(f p).2.1, (f p).2.2 ++ rest⟩) :
    Drafts base (log ++ (h.replace place f).1.toList) (h.replace place f).2 := by
  cases found : h.proxies[place]? with
  | none =>
    simp only [Holding.replace, found, Option.toList_none, List.append_nil]
    exact drafts
  | some p =>
    obtain ⟨bound, rfl⟩ := List.getElem?_eq_some_iff.1 found
    have parts := (List.getElem_cons_eraseIdx_perm bound).symm
    have same : (h.replace place f).1 = (f h.proxies[place]).1 := by
      simp only [Holding.replace, found]
    have after := each _ _ parts same
    simp only [Holding.replace, found]
    exact after

end Drafts

end Holding

/-- The deed creates or gives up objects, makes requests or changes a draft.  Those that go away or
    are changed are among those that `owned` has. -/
def Deed.IsDrafting (owned : List ObjectKey) : Deed → Prop
  | .create .. | .borrow _ | .null _ | .marshal .. | .take _ | .destroy _ | .destroyWithRequest ..
  | .drop _ => True
  | .other action _ => action.Shapes owned
  | .adopt .. | .socket _ | .hold _ | .letGo _ | .close => False

/-- The turn is part of drafting: no request is accepted that carries the number of a draft. -/
structure Turn.IsDrafting (t : Turn) : Prop where
  deed : t.deed.IsDrafting t.before.owned
  untold : ∀ r, t.request? = some r → ∀ key ∈ t.before.owned, ¬ r.Carries key.1

namespace Holding

variable {base : Channel} {log : List Request} {h : Holding}

/-- What happens in a turn of drafting leaves drafts, and nothing else that is new. -/
theorem Drafts.turn (drafts : h.Drafts base log) {deed : Deed}
    (drafting : (h.turn deed).IsDrafting) :
    (h.turn deed).after.Drafts base (log ++ (h.turn deed).request?.toList) := by
  obtain ⟨kind, untold⟩ := drafting
  cases deed with
  | create factory interface version =>
    cases version with
    | some version =>
      exact (drafts.gain
        (createVersioned_makes drafts.rooted.state factory interface version)).silent
    | none => exact (drafts.gain (create_makes drafts.rooted.state factory interface)).silent
  | borrow id =>
    refine (drafts.cons rfl ?_).silent
    intro handle held
    obtain ⟨_, _, rfl⟩ := Option.map_eq_some_iff.1 held
    rfl
  | null owning => exact (drafts.cons (by simp [Proxy.owned?]) (by simp)).silent
  | marshal sender opcode args => exact drafts.marshal sender opcode args untold
  | take place => exact drafts.replace place fun p rest parts _ => (drafts.take parts).silent
  | destroy place =>
    refine drafts.replace place fun p rest parts _ => ?_
    have idle : ∀ q ∈ [(p.destroy.run h.state).1], q.handle = none := by simp [destroy_handle]
    exact (drafts.destroy parts idle).silent
  | destroyWithRequest place opcode args =>
    refine drafts.replace place fun p rest parts same => ?_
    by_cases owning : p.owning = true
    · simp only [owning, if_true] at same ⊢
      exact drafts.destroyWithRequest parts owning opcode args fun r sent =>
        untold r (same.trans sent)
    · -- Only an owner can make a last request.
      simp only [owning]
      exact (drafts.congr (drafts.rooted.perm parts).1 rfl (owned_perm parts)).silent
  | drop place =>
    refine drafts.replace place fun p rest parts _ => ?_
    have idle : ∀ q ∈ ([] : List Proxy), q.handle = none := by simp
    exact (drafts.destroy parts idle).silent
  | other action apart =>
    -- Neither handlers nor a queue are something to tell the compositor of.
    have nothing : (h.turn (.other action apart)).request? = none := by cases kind <;> rfl
    rw [nothing]
    exact (drafts.shape apart kind).silent
  | _ => exact kind.elim

/-- What has happened in turns of drafting. -/
theorem Drafts.run (drafts : h.Drafts base log) (deeds : List Deed)
    (drafting : ∀ t ∈ h.trace deeds, t.IsDrafting) :
    (h.run deeds).Drafts base (log ++ (h.trace deeds).filterMap Turn.request?) := by
  -- What the first turn asks for goes to the end of `log` before the others begin.
  induction deeds generalizing h log with
  | nil => simpa [Holding.run, trace] using drafts
  | cons deed deeds ih =>
    have first := drafts.turn (drafting _ List.mem_cons_self)
    have rest := ih first fun t later => drafting t (List.mem_cons_of_mem _ later)
    cases asked : (h.turn deed).request? <;> simpa [Holding.run, trace, asked] using rest

/-! ## Calls that fail -/

/-- What else there is in a session does not matter. -/
theorem Drafts.idle {s : State} (drafts : h.Drafts base log)
    (channels : s.channels = h.state.channels) (displays : s.displays = h.state.displays)
    (held : s.held = h.state.held)
    (intents : s.intents = h.state.intents) : Drafts base log { h with state := s } := by
  have same : s.channel 0 = h.state.channel 0 := by simp only [State.channel, channels]
  have rooted := drafts.rooted.state
  refine drafts.congr ⟨⟨?_, ?_, ?_, ?_⟩, drafts.rooted.handles⟩ same .rfl
  · rw [channels]
    exact rooted.single
  · rw [displays, same]
    exact rooted.display
  · rw [held]
    exact rooted.held
  · rw [intents]
    exact rooted.intents

/-- Something is attached to a draft, or not. -/
theorem Drafts.attach {p : Proxy} (drafts : h.Drafts base log) (member : p ∈ h.proxies)
    (owning : p.owning = true) (interface : Interface) (handlers : Nat) (data : ObjectData) :
    Drafts base log { h with state := (h.state.outcome (p.attach interface handlers data)).2 } := by
  unfold Proxy.attach
  obtain ⟨⟨_, failed⟩, _⟩ | ⟨handle, held, kept, live⟩ := live_cases h.state p
  · rw [outcome_bind_error failed]
    exact drafts
  · have owned : handle.object.key ∈ h.owned :=
      List.mem_filterMap.2 ⟨p, member, Proxy.owned?_some.2 ⟨owning, handle, held, rfl⟩⟩
    rw [outcome_bind_ok live, outcome_tryConnection, drafts.rooted.state.eq_zero kept]
    dsimp only
    cases attached :
        ((h.state.channel 0).connection.attach handle.object interface handlers data).value with
    | error cause => exact drafts.noted _
    | ok result =>
      obtain ⟨first, c⟩ := result
      obtain rfl := attach_step attached
      have dealing : Dealing h.connection h.owned none none
          (h.connection.step (.attach handle.object interface handlers data)).after h.owned :=
        .work rfl rfl
      refine drafts.putChannel (drafts.rooted.putChannel _ drafts.rooted.handles dealing).1 ?_
        drafts.link
      exact (h.connection.step_effect _).drafts_shaped drafts.connection (.attach owned)

theorem Drafts.attachHandlers {p : Proxy} (drafts : h.Drafts base log) (member : p ∈ h.proxies)
    (owning : p.owning = true) (interface : Interface) (data : ObjectData) :
    Drafts base log
      { h with state := ((Session.attachHandlers p interface data).run h.state).2 } := by
  have attached := drafts.attach member owning interface interface.events.length data
  unfold Session.attachHandlers
  rw [run_bind, run_outcome]
  generalize h.state.outcome (p.attach interface interface.events.length data) = outcome
    at attached ⊢
  split
  · exact attached.idle rfl rfl rfl rfl
  · exact attached

theorem Drafts.newRegistry {p : Proxy} (drafts : h.Drafts base log) (member : p ∈ h.proxies)
    (owning : p.owning = true) :
    let made := (Session.newRegistry p).run h.state
    made.1.proxy = p ∧ Drafts base log { h with state := made.2 } := by
  have placed : Drafts base log
      { h with state := { h.state with registries := h.state.registries ++ [{}] } } :=
    drafts.idle rfl rfl rfl rfl
  exact ⟨rfl, placed.attachHandlers member owning Protocol.Core.registry _⟩

theorem Drafts.newCallback {p : Proxy} (drafts : h.Drafts base log) (member : p ∈ h.proxies)
    (owning : p.owning = true) :
    let made := (Session.newCallback p).run h.state
    made.1.1.proxy = p ∧ Drafts base log { h with state := made.2 } := by
  have placed : Drafts base log
      { h with state := { h.state with callbacks := h.state.callbacks ++ [{}] } } :=
    drafts.idle rfl rfl rfl rfl
  exact ⟨rfl, placed.attachHandlers member owning Protocol.Core.callback _⟩

theorem Drafts.listen {p : Proxy} (drafts : h.Drafts base log) (member : p ∈ h.proxies)
    (owning : p.owning = true) (own : Interface) (listener : Listener) :
    Drafts base log { h with state := (h.state.outcome (p.listen own listener)).2 } := by
  unfold Proxy.listen
  split
  next name _ =>
    cases known : h.state.protocol.find? name with
    | some interface =>
      have named : h.state.outcome (interfaceNamed name) = (.ok interface, h.state) := by
        simp [interfaceNamed, outcome_bind, known]
      rw [outcome_bind_ok named]
      exact drafts.attach member owning _ _ _
    | none =>
      have unnamed : h.state.outcome (interfaceNamed name) =
          (.error (.noSuchName name), h.state) := by
        simp [interfaceNamed, outcome_bind, known]
      rw [outcome_bind_error unnamed]
      exact drafts
  · rw [outcome_bind_ok (outcome_pure own)]
    exact drafts.attach member owning _ _ _

/-- A draft is wrapped in something that is dropped with it. -/
theorem Drafts.wrapBound {p : Proxy} (drafts : h.Drafts base log) (member : p ∈ h.proxies)
    (owning : p.owning = true) (interface : Interface) (listener : Option Listener) :
    let wrapped := (Session.wrapBound interface listener p).run h.state
    wrapped.1.proxy = p ∧ Drafts base log { h with state := wrapped.2 } := by
  intro wrapped
  unfold wrapped Session.wrapBound
  split
  · exact drafts.newRegistry member owning
  split
  · exact drafts.newCallback member owning
  split
  · exact ⟨rfl, drafts.listen member owning interface _⟩
  · exact ⟨rfl, drafts⟩

section

variable {s s' : State} {cause : StepError}

/-- If the compositor cannot be told of a draft, the draft goes. -/
theorem Drafts.announce_fails {p sender : Proxy} {object : Bound} {opcode : UInt16}
    {args : List Argument} (drafts : Drafts base [] ⟨s, [p]⟩) (around : object.proxy = p)
    (failed : s.outcome (announce object sender opcode args) = (.error cause, s')) :
    Drafts base [] ⟨s', []⟩ := by
  have asked := drafts.marshal sender opcode args
  unfold announce at failed
  rw [outcome_bind, outcome_observing] at failed
  dsimp only at failed asked
  generalize s.outcome (sender.marshal opcode args) = outcome at failed asked
  obtain ⟨result, t⟩ := outcome
  cases result with
  | ok _ => cases failed
  | error refusal =>
    -- What the draft is wrapped in is dropped on the way out, and the draft with it.
    have refused : Drafts base [] ⟨t, [p]⟩ := asked (by simp [State.sent?])
    have left : s' = (p.destroy.run t).2 := by
      rw [← around]
      exact (congrArg Prod.snd failed).symm
    have idle : ∀ q ∈ ([] : List Proxy), q.handle = none := by simp
    rw [left]
    exact refused.destroy .rfl idle

/-- A call that creates an object and goes on with it. -/
theorem Drafts.create_fails {m : StepM Proxy} {f : Proxy → StepM Bound} {interface : Interface}
    (drafts : Drafts base [] ⟨s, []⟩)
    (makes : s.Makes (s.outcome m) fun o c => ∃ maker version,
      (s.channel 0).connection.createObject maker interface version = .ok (o, c))
    (each : ∀ p t, p.owning = true → Drafts base [] ⟨t, [p]⟩ →
      t.outcome (f p) = (.error cause, s') → Drafts base [] ⟨s', []⟩)
    (failed : s.outcome (m >>= f) = (.error cause, s')) : Drafts base [] ⟨s', []⟩ := by
  have gained := drafts.gain makes
  obtain ⟨_, made⟩ | ⟨o, c, _, made⟩ := makes
  · rw [outcome_bind_error made] at failed
    cases failed
    exact drafts
  · rw [made] at gained
    rw [outcome_bind_ok made] at failed
    exact each _ _ rfl gained failed

theorem Drafts.bindGlobal_fails {registry : Proxy} {interface : Interface} {name version : UInt32}
    {listener : Option Listener} (drafts : Drafts base [] ⟨s, []⟩)
    (failed : s.outcome (bindGlobal registry interface name version listener) =
      (.error cause, s')) : Drafts base [] ⟨s', []⟩ := by
  refine drafts.create_fails (createVersioned_makes drafts.rooted.state registry interface version)
    (fun p t owning created failed => ?_) failed
  obtain ⟨around, wrapped⟩ := created.wrapBound List.mem_cons_self owning interface listener
  rw [outcome_bind_ok outcome_get, outcome_bind_ok (outcome_lift _)] at failed
  exact wrapped.announce_fails around failed

/-- A display that is gone cannot create anything. -/
theorem Drafts.display_fails {d : Display} {f : ConnectionRef → StepM Bound}
    (drafts : Drafts base [] ⟨s, []⟩)
    (each : ∀ k, s.outcome (f k) = (.error cause, s') → Drafts base [] ⟨s', []⟩)
    (failed : s.outcome (d.live >>= f) = (.error cause, s')) : Drafts base [] ⟨s', []⟩ := by
  cases connected : d.connection with
  | none =>
    have gone : s.outcome d.live = (.error (.client .disconnected), s) := by
      unfold Display.live
      rw [connected]
      rfl
    rw [outcome_bind_error gone] at failed
    cases failed
    exact drafts
  | some k =>
    have live : s.outcome d.live = (.ok k, s) := by
      unfold Display.live
      rw [connected]
      rfl
    rw [outcome_bind_ok live] at failed
    exact each k failed

theorem Drafts.getRegistry_fails {d : Display} (drafts : Drafts base [] ⟨s, []⟩)
    (failed : s.outcome d.getRegistry = (.error cause, s')) : Drafts base [] ⟨s', []⟩ := by
  refine drafts.display_fails (fun _ failed => ?_) failed
  refine drafts.create_fails (create_makes drafts.rooted.state d.proxy Protocol.Core.registry)
    (fun p t owning created failed => ?_) failed
  obtain ⟨around, wrapped⟩ := created.newRegistry List.mem_cons_self owning
  rw [outcome_bind_ok outcome_get, outcome_bind_ok (outcome_lift _)] at failed
  exact wrapped.announce_fails around failed

theorem Drafts.sync_fails {d : Display} (drafts : Drafts base [] ⟨s, []⟩)
    (failed : s.outcome d.sync = (.error cause, s')) : Drafts base [] ⟨s', []⟩ := by
  refine drafts.display_fails (fun _ failed => ?_) failed
  refine drafts.create_fails (create_makes drafts.rooted.state d.proxy Protocol.Core.callback)
    (fun p t owning created failed => ?_) failed
  obtain ⟨around, wrapped⟩ := created.newCallback List.mem_cons_self owning
  rw [outcome_bind_ok outcome_get, outcome_bind_ok (outcome_lift _)] at failed
  exact wrapped.announce_fails around failed

end

/-! ## Nothing is left -/

theorem Drafts.restored (drafts : h.Drafts base log) (none : h.owned = []) :
    ∃ next, base.connection.objects.nextGeneration ≤ next ∧
      h.connection.objects = { base.connection.announced log with nextGeneration := next } ∧
      (log = [] → h.state.channel 0 =
        { base with
          connection := { base.connection with
            objects := { base.connection.objects with nextGeneration := next } } }) := by
  have connection := drafts.connection
  rw [none] at connection
  obtain ⟨next, later, objects, rest⟩ := connection.restored
  refine ⟨next, later, objects, fun quiet => ?_⟩
  have link := drafts.link quiet
  have same := rest quiet
  unfold Holding.connection at same
  rw [← same, ← link]

theorem start_drafts (protocol : Protocol) (past : List Deed) :
    let h := (start protocol).run past
    Drafts (h.state.channel 0) [] ⟨h.state, []⟩ := by
  intro h
  -- A holding without proxies: whatever was created in the past belongs to `base`.
  have begins := start_rooted protocol
  obtain ⟨rooted, _⟩ := custody_run begins (Client.Custody.initial protocol) past
  obtain ⟨actions, reached, _⟩ := follows_run begins past
  refine ⟨⟨rooted.state, by simp⟩, ?_, fun _ => rfl⟩
  have fresh := Connection.Drafts.refl protocol actions
  rw [show (Connection.initial protocol : Connection ObjectData).run actions = h.connection from
    reached.symm] at fresh
  exact fresh

end Holding

/-- Only the generations of the connection have moved on. -/
def State.Restores (s s' : State) : Prop :=
  ∃ next, (s.channel 0).connection.objects.nextGeneration ≤ next ∧
    s'.channel 0 =
      { s.channel 0 with
        connection := { (s.channel 0).connection with
          objects := { (s.channel 0).connection.objects with nextGeneration := next } } }

/-- Whatever has happened to a connection.  Objects are created and given up, in any order, while no
    request is accepted that carries the number of one of them.  Once nobody owns any of them, the
    objects and the free numbers are those of before, apart from what other requests have told the
    compositor; without such requests the connection and its socket are exactly as they were, and
    only generations have moved on.  The same holds of binding a global and of asking for a registry
    or a callback, if it fails. -/
theorem abandoned_creations_leave_no_trace (protocol : Protocol) (past : List Deed) :
    let h := (Holding.start protocol).run past
    let fresh : Holding := ⟨h.state, []⟩
    (∀ deeds, (∀ t ∈ fresh.trace deeds, t.IsDrafting) → (fresh.run deeds).owned = [] →
      let requests := (fresh.trace deeds).filterMap Turn.request?
      ∃ next, h.connection.objects.nextGeneration ≤ next ∧
        (fresh.run deeds).connection.objects =
          { h.connection.announced requests with nextGeneration := next } ∧
        (requests = [] → h.state.Restores (fresh.run deeds).state)) ∧
    (∀ registry interface name version listener cause s',
      h.state.outcome (bindGlobal registry interface name version listener) = (.error cause, s') →
        h.state.Restores s') ∧
    ∀ (d : Display) cause s',
      (h.state.outcome d.getRegistry = (.error cause, s') ∨
        h.state.outcome d.sync = (.error cause, s')) → h.state.Restores s' := by
  intro h fresh
  have drafts : fresh.Drafts (h.state.channel 0) [] := Holding.start_drafts protocol past
  have undone {s' : State} (left : Holding.Drafts (h.state.channel 0) [] ⟨s', []⟩) :
      h.state.Restores s' := by
    obtain ⟨next, later, _, same⟩ := left.restored rfl
    exact ⟨next, later, same rfl⟩
  refine ⟨fun deeds drafting none => ?_, fun _ _ _ _ _ _ _ failed => undone ?_,
    fun d cause s' failed => undone ?_⟩
  · obtain ⟨next, later, objects, same⟩ := (drafts.run deeds drafting).restored none
    exact ⟨next, later, objects, fun quiet => ⟨next, later, same quiet⟩⟩
  · exact drafts.bindGlobal_fails failed
  · exact failed.elim drafts.getRegistry_fails drafts.sync_fails

/-- Three callbacks are created, and the second is given up. -/
def callbacksWithGap : List Deed :=
  [.create displayProxy Protocol.Core.callback none,
    .create displayProxy Protocol.Core.callback none,
    .create displayProxy Protocol.Core.callback none, .drop 1]

/-- Three more are created, and something is done.  Then the one in the gap goes, the one in the
    middle, which has been borrowed and for which a request is refused, and the last. -/
def callbacksGivenUp (between : List Deed) : List Deed :=
  [.create displayProxy Protocol.Core.callback (some 1),
    .create displayProxy Protocol.Core.callback (some 1),
    .create displayProxy Protocol.Core.callback none, .borrow (some 5)]
  ++ between ++ [.drop 3, .destroyWithRequest 2 0 [], .drop 2]

/-- Tells the compositor of the first callback. -/
def firstTold : Deed := .marshal displayProxy Protocol.Core.syncRequest [.newId 2]

theorem Holding.deed_mem {h : Holding} {deeds : List Deed} {t : Turn} (member : t ∈ h.trace deeds) :
    t.deed ∈ deeds := by
  induction deeds generalizing h with
  | nil => cases member
  | cons deed deeds ih =>
    obtain rfl | later := List.mem_cons.1 member
    · exact List.mem_cons_self
    · exact List.mem_cons_of_mem _ (ih later)

/-- Whether these are turns of drafting can be computed. -/
theorem Holding.drafting_of_all {h : Holding} {deeds : List Deed}
    (plain : ∀ deed ∈ deeds, ∀ owned, deed.IsDrafting owned)
    (untold : ((h.trace deeds).all fun t =>
      t.request?.all fun r => t.before.owned.all fun key => !r.Carries key.1) = true) :
    ∀ t ∈ h.trace deeds, t.IsDrafting := by
  intro t member
  refine ⟨plain _ (Holding.deed_mem member) _, fun r asked key owned => ?_⟩
  have each := List.all_eq_true.1 untold t member
  rw [asked, Option.all_some] at each
  simpa using List.all_eq_true.1 each key owned

/-- The gap is there again, also if the compositor has been told of the first callback meanwhile.
    The display has no request that binds a global, so that to bind one through it fails, too. -/
theorem abandoned_creations_leave_no_trace_gap :
    let h := (Holding.start ⟨[]⟩).run callbacksWithGap
    let fresh : Holding := ⟨h.state, []⟩
    let told := fresh.run (callbacksGivenUp [firstTold])
    let requests := (fresh.trace (callbacksGivenUp [firstTold])).filterMap Turn.request?
    h.connection.objects.ids = ⟨5, [3]⟩ ∧
    requests.map Request.newIds = [[2]] ∧
    (∃ next, told.connection.objects =
      { h.connection.announced requests with nextGeneration := next }) ∧
    h.state.Restores (fresh.run (callbacksGivenUp [])).state ∧
    ∃ cause s', h.state.outcome (bindGlobal displayProxy Protocol.Core.callback 1 1 none) =
      (.error cause, s') ∧ h.state.Restores s' := by
  intro h fresh told requests
  obtain ⟨whole, bound, _⟩ := abandoned_creations_leave_no_trace ⟨[]⟩ callbacksWithGap
  obtain ⟨next, _, announced, _⟩ := whole (callbacksGivenUp [firstTold])
    (Holding.drafting_of_all (by simp [callbacksGivenUp, firstTold, Deed.IsDrafting])
      (by decide +kernel)) (by decide +kernel)
  obtain ⟨_, _, _, restores⟩ := whole (callbacksGivenUp [])
    (Holding.drafting_of_all (by simp [callbacksGivenUp, Deed.IsDrafting]) (by decide +kernel))
    (by decide +kernel)
  have silent : (fresh.trace (callbacksGivenUp [])).filterMap Turn.request? = [] :=
    List.eq_nil_of_length_eq_zero (by decide +kernel)
  have fails : (h.state.outcome
      (bindGlobal displayProxy Protocol.Core.callback 1 1 none)).1.toOption.isNone = true := by
    decide +kernel
  refine ⟨by decide +kernel, by decide +kernel, ⟨next, announced⟩, restores silent, ?_⟩
  have undone := bound displayProxy Protocol.Core.callback 1 1 none
  generalize h.state.outcome (bindGlobal displayProxy Protocol.Core.callback 1 1 none) = outcome
    at fails undone ⊢
  obtain ⟨cause | _, s'⟩ := outcome
  · exact ⟨cause, s', rfl, undone cause s' rfl⟩
  · cases fails

end Wayland.Session
