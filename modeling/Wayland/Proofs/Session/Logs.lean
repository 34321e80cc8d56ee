import Wayland.Proofs.Session.Handlers
import Wayland.Proofs.Session.Scripts

/-! # Logs of sessions

`State.Passes` relates two states of a session by a log of what happens between them: the actions of
connections, the handlers of registries that are set, the events that are handed out with whom they
call, and what the calls leave behind.  The steps of a handler are run as the session runs them,
with the same patience and as deep as it goes at that point (`Scope`), and they have a log of their
own within that of the call.

A log tells by itself where each connection is (`courseOf`), which handler of a registry was set
last (`Slot.latest`) and whether it runs (`Slot.busy`).  `State.Stands` says that a session is as
the log says.  This is kept along every log: a call takes the handler out of its slot, and what it
leaves is the handler set last once more.
-/

namespace Wayland.Session

open Client (Action Connection Delivery Note QueueId)

/-! ## What happens -/

/-- What happens in a session. -/
inductive Mark
  /-- A connection takes an action that hands out no event. -/
  | acts (k : ConnectionRef) (action : Action ObjectData)
  /-- The application sets a handler of a registry. -/
  | sets (slot : Slot) (handler : Handler)
  /-- A queue hands out an event, and the event calls a handler, or nobody. -/
  | hands (k : ConnectionRef) (queue : QueueId) (d : Delivery ObjectData)
      (called : Option Invocation)
  /-- The call for an event is over.  These are the handlers of registries then. -/
  | returns (d : Delivery ObjectData) (installed : Slot → Option Handler)

def Mark.action? (k : ConnectionRef) : Mark → Option (Action ObjectData)
  | .acts j action => if j = k then some action else none
  | .hands j queue _ _ => if j = k then some (.next queue) else none
  | _ => none

/-- The actions of a connection. -/
def courseOf (k : ConnectionRef) (log : List Mark) : List (Action ObjectData) :=
  log.filterMap (·.action? k)

@[simp] theorem courseOf_append (k : ConnectionRef) (log more : List Mark) :
    courseOf k (log ++ more) = courseOf k log ++ courseOf k more := List.filterMap_append

/-- The connections move when an event is handed out and while its handler runs. -/
theorem courseOf_call (k : ConnectionRef) (first : Mark) (inner : List Mark)
    (d : Delivery ObjectData) (installed : Slot → Option Handler) :
    courseOf k (first :: (inner ++ [.returns d installed])) =
      courseOf k [first] ++ courseOf k inner := by
  rw [← List.singleton_append, courseOf_append, courseOf_append]
  simp [courseOf, Mark.action?]

/-- Where something happens: in a list of steps, or in one step of it.  The number says how deep
    handlers may call handlers there. -/
inductive Scope
  | script (depth : Nat)
  | step (depth : Nat)

/-- No connection moves, no handler is set, and nobody is called. -/
structure State.Quiet (s t : State) : Prop where
  protocol : t.protocol = s.protocol
  channels : s.channels.length ≤ t.channels.length
  connections : ∀ k, t.connectionAt k = s.connectionAt k
  installed : ∀ slot, t.installed slot = s.installed slot
  registries : s.registries.length ≤ t.registries.length
  calls : t.frame.calls = s.frame.calls

/-- The session moves on, and the log says what happens meanwhile. -/
inductive State.Passes (patience : Nat) : Scope → State → List Mark → State → Prop
  | done {scope : Scope} {s : State} : Passes patience scope s [] s
  | append {scope : Scope} {s t u : State} {log more : List Mark}
      (first : Passes patience scope s log t) (second : Passes patience scope t more u) :
      Passes patience scope s (log ++ more) u
  /-- A step of a script has a frame of its own. -/
  | step {depth : Nat} {s t : State} {log : List Mark}
      (runs : Passes patience (.step depth) { s with frame := {} } log t) :
      Passes patience (.script (depth + 1)) s log { t with frame := s.frame }
  | quiet {depth : Nat} {s t : State} (quiet : s.Quiet t) : Passes patience (.step depth) s [] t
  | acts {depth : Nat} {s : State} {k : ConnectionRef} {channel : Channel}
      {action : Action ObjectData} {notes : List Note} (known : k < s.channels.length)
      (silent : ((s.channel k).connection.step action).delivery? = none)
      (moved : channel.connection = ((s.channel k).connection.step action).after) :
      Passes patience (.step depth) s [.acts k action] (s.putChannel k channel notes)
  | sets {depth : Nat} {s : State} {slot : Slot} {h : Handler}
      (known : slot.cell < s.registries.length) :
      Passes patience (.step depth) s [.sets slot h] (s.reinstall slot fun _ => some h)
  | misses {depth : Nat} {s t : State} {k : ConnectionRef} {queue : QueueId}
      {d : Delivery ObjectData} (handed : s.handsOut k queue = some d)
      (nobody : (s.popped k queue).summoned k d = none) (only : (s.popped k queue).Without none t)
      (delivers : ((deliver (runSteps patience depth) k d).run (s.popped k queue)).2 = t) :
      Passes patience (.step depth) s [.hands k queue d none] t
  | calls {depth : Nat} {s begun left ended : State} {k : ConnectionRef} {queue : QueueId}
      {d : Delivery ObjectData} {call : Invocation} {inner : List Mark}
      (handed : s.handsOut k queue = some d)
      (called : State.Calls (runSteps patience depth) (s.popped k queue) k d call begun left ended)
      (inside : Passes patience (.script depth) begun inner left) :
      Passes patience (.step depth) s
        (.hands k queue d (some call) :: (inner ++ [.returns d ended.installed])) ended

/-! ## Connections -/

section

variable {s t : State} {k j : ConnectionRef} {queue : QueueId} {d : Delivery ObjectData}
  {call : Invocation} {begun left ended : State}

theorem connectionAt_popped (handed : s.handsOut k queue = some d) :
    (s.popped k queue).connectionAt j =
      if j = k then ((s.connectionAt k).step (.next queue)).after else s.connectionAt j := by
  have known := lt_of_delivery handed
  unfold State.popped
  rw [connectionAt_putChannel, connectionAt_of_lt known]
  simp [known]

theorem State.Alike.connections (alike : s.Alike t) (k : ConnectionRef) :
    t.connectionAt k = s.connectionAt k := connectionAt_congr alike.protocol alike.channels

theorem length_popped : (s.popped k queue).channels.length = s.channels.length := by
  simp [State.popped, State.putChannel]

/-- An event that is handed out takes its connection one action further, whatever comes of it. -/
theorem State.Without.popped_connections {slot : Option Slot} {called : Option Invocation}
    (handed : s.handsOut k queue = some d) (only : (s.popped k queue).Without slot t) :
    t.connectionAt j = (s.connectionAt j).run (courseOf j [.hands k queue d called]) := by
  rw [only.connections, connectionAt_popped handed]
  by_cases here : j = k
  · simp [here, courseOf, Mark.action?, Connection.run]
  · simp [here, Ne.symm here, courseOf, Mark.action?, Connection.run]

theorem State.Passes.moves {patience : Nat} {scope : Scope} {log : List Mark}
    (passes : s.Passes patience scope log t) :
    t.protocol = s.protocol ∧ s.channels.length ≤ t.channels.length ∧
      ∀ k, t.connectionAt k = (s.connectionAt k).run (courseOf k log) := by
  induction passes with
  | done => exact ⟨rfl, Nat.le_refl _, fun _ => rfl⟩
  | append _ _ before after =>
    obtain ⟨protocol, channels, connections⟩ := before
    obtain ⟨protocol', channels', connections'⟩ := after
    refine ⟨protocol'.trans protocol, Nat.le_trans channels channels', fun k => ?_⟩
    rw [connections', connections, courseOf_append, Connection.run_append]
  -- A frame is no part of a connection.
  | step _ ih => exact ih
  | quiet quiet => exact ⟨quiet.protocol, quiet.channels, quiet.connections⟩
  | @acts _ s k _ action _ known _ moved =>
    refine ⟨rfl, by simp [State.putChannel], fun j => ?_⟩
    rw [connectionAt_putChannel]
    by_cases here : j = k
    · simp [here, known, moved, connectionAt_of_lt known, courseOf, Mark.action?, Connection.run]
    · simp [here, Ne.symm here, courseOf, Mark.action?, Connection.run]
  | sets => exact ⟨rfl, Nat.le_refl _, fun _ => rfl⟩
  | misses handed _ only =>
    refine ⟨only.protocol, Nat.le_of_eq ?_, fun _ => only.popped_connections handed⟩
    rw [only.channels, length_popped]
  | @calls _ s begun left ended k queue d call inner handed called _ ih =>
    obtain ⟨protocol, channels, connections⟩ := ih
    refine ⟨?_, ?_, fun j => ?_⟩
    · rw [called.ends.protocol, protocol, called.begins.protocol]
      rfl
    · rw [called.ends.channels]
      refine Nat.le_trans (Nat.le_of_eq ?_) channels
      rw [called.begins.channels, length_popped]
    · have begins : begun.connectionAt j =
        (s.connectionAt j).run (courseOf j [.hands k queue d (some call)]) :=
          called.begins.popped_connections handed
      rw [called.ends.connections, connections, begins, ← Connection.run_append, courseOf_call]

end

/-! ## Handlers of registries -/

namespace Slot

variable (slot other : Slot) (past : List Mark)

/-- The handler that was set last. -/
def latest : Option Handler :=
  past.foldl (fun handler mark =>
    match mark with
    | .sets other h => if other = slot then some h else handler
    | _ => handler) none

/-- The handler runs: an event has called it, and since then the call has not returned and no other
    handler was set. -/
def busy : Bool :=
  past.foldl (fun running mark =>
    match mark with
    | .sets other _ => running && other ≠ slot
    | .hands _ _ d called => running || (slot? d = some slot && called.isSome)
    | .returns d _ => running && slot? d ≠ some slot
    | .acts _ _ => running) false

/-- The handler that an event finds. -/
def held : Option Handler := if slot.busy past then none else slot.latest past

theorem latest_sets (h : Handler) : slot.latest (past ++ [.sets other h]) =
    if other = slot then some h else slot.latest past := by
  simp [latest]

/-- Only the application sets handlers. -/
theorem latest_other {mark : Mark} (unset : ∀ other h, mark ≠ .sets other h) :
    slot.latest (past ++ [mark]) = slot.latest past := by
  cases mark with
  | sets other h => exact absurd rfl (unset other h)
  | _ => simp [latest]

/-- There is no way to unset a handler. -/
theorem latest_append {past : List Mark} (set : (slot.latest past).isSome) (log : List Mark) :
    (slot.latest (past ++ log)).isSome := by
  induction log generalizing past with
  | nil => rwa [List.append_nil]
  | cons mark log ih =>
    rw [List.append_cons]
    refine ih ?_
    cases mark with
    | sets other h =>
      rw [latest_sets]
      split
      · rfl
      · exact set
    | _ => rwa [latest_other _ _ (by simp)]

theorem busy_acts (k : ConnectionRef) (action : Action ObjectData) :
    slot.busy (past ++ [.acts k action]) = slot.busy past := by
  simp [busy]

theorem busy_sets (h : Handler) :
    slot.busy (past ++ [.sets other h]) = (slot.busy past && other ≠ slot) := by
  simp [busy]

theorem busy_hands (k : ConnectionRef) (queue : QueueId) (d : Delivery ObjectData)
    (called : Option Invocation) : slot.busy (past ++ [.hands k queue d called]) =
      (slot.busy past || (slot? d = some slot && called.isSome)) := by
  simp [busy]

theorem busy_returns (d : Delivery ObjectData) (installed : Slot → Option Handler) :
    slot.busy (past ++ [.returns d installed]) = (slot.busy past && slot? d ≠ some slot) := by
  simp [busy]

theorem latest_of_held {past : List Mark} {h : Handler} (found : slot.held past = some h) :
    slot.latest past = some h := by
  unfold held at found
  split at found
  · cases found
  · exact found

theorem held_acts (k : ConnectionRef) (action : Action ObjectData) :
    slot.held (past ++ [.acts k action]) = slot.held past := by
  rw [held, busy_acts, latest_other _ _ (by simp), held]

theorem held_sets (h : Handler) : slot.held (past ++ [.sets other h]) =
    if slot = other then some h else slot.held past := by
  rw [held, busy_sets, latest_sets, held]
  by_cases same : slot = other
  · simp [same]
  · simp [same, Ne.symm same]

theorem held_misses (k : ConnectionRef) (queue : QueueId) (d : Delivery ObjectData) :
    slot.held (past ++ [.hands k queue d none]) = slot.held past := by
  rw [held, busy_hands, latest_other _ _ (by simp), held]
  simp

theorem held_calls (k : ConnectionRef) (queue : QueueId) (d : Delivery ObjectData)
    (call : Invocation) : slot.held (past ++ [.hands k queue d (some call)]) =
      if slot? d = some slot then none else slot.held past := by
  rw [held, busy_hands, latest_other _ _ (by simp), held]
  by_cases mine : slot? d = some slot <;> simp [mine]

theorem held_returns (d : Delivery ObjectData) (installed : Slot → Option Handler) :
    slot.held (past ++ [.returns d installed]) =
      if slot? d = some slot then slot.latest past else slot.held past := by
  rw [held, busy_returns, latest_other _ _ (by simp), held]
  by_cases mine : slot? d = some slot <;> simp [mine]

end Slot

theorem append_call {past inner : List Mark} {first last : Mark} :
    past ++ first :: (inner ++ [last]) = past ++ [first] ++ inner ++ [last] := by
  simp

namespace State

variable {s t : State} {slot : Slot} {patience : Nat} {scope : Scope} {log past : List Mark}

theorem Passes.registries (passes : s.Passes patience scope log t) :
    s.registries.length ≤ t.registries.length := by
  induction passes with
  | done => exact Nat.le_refl _
  | append _ _ before after => exact Nat.le_trans before after
  | step _ ih => exact ih
  | quiet quiet => exact quiet.registries
  | acts => exact Nat.le_refl _
  | sets => exact Nat.le_of_eq length_reinstall.symm
  | misses _ _ only => exact Nat.le_of_eq only.registries.symm
  | calls _ called _ ih =>
    rw [called.ends.registries]
    exact Nat.le_trans (Nat.le_of_eq called.begins.registries.symm) ih

/-- Whatever is called returns.  So a handler that runs at the end has run all the time. -/
theorem Passes.busy_before (passes : s.Passes patience scope log t)
    (running : slot.busy (past ++ log) = true) :
    slot.busy past = true ∧ slot.latest (past ++ log) = slot.latest past := by
  induction passes generalizing past with
  | done =>
    rw [List.append_nil] at running ⊢
    exact ⟨running, rfl⟩
  | append _ _ before after =>
    rw [← List.append_assoc] at running ⊢
    obtain ⟨midway, later⟩ := after running
    obtain ⟨earlier, latest⟩ := before midway
    exact ⟨earlier, later.trans latest⟩
  | step _ ih => exact ih running
  | quiet =>
    rw [List.append_nil] at running ⊢
    exact ⟨running, rfl⟩
  | acts =>
    rw [Slot.busy_acts] at running
    exact ⟨running, Slot.latest_other _ _ (by simp)⟩
  | sets =>
    rw [Slot.busy_sets, Bool.and_eq_true, decide_eq_true_eq] at running
    rw [Slot.latest_sets, if_neg running.2]
    exact ⟨running.1, rfl⟩
  | misses =>
    rw [Slot.latest_other _ _ (by simp)]
    simpa [Slot.busy_hands] using running
  | calls _ _ _ ih =>
    rw [append_call] at running ⊢
    -- The call that has returned was one of another slot.
    rw [Slot.busy_returns, Bool.and_eq_true, decide_eq_true_eq] at running
    obtain ⟨called, latest⟩ := ih running.1
    rw [Slot.latest_other _ _ (by simp), latest, Slot.latest_other _ _ (by simp)]
    simpa [Slot.busy_hands, running.2] using called

/-- A session is as the log says that has led to it. -/
structure Stands (origin : State) (past : List Mark) (s : State) : Prop where
  connections : ∀ k, s.connectionAt k = (origin.connectionAt k).run (courseOf k past)
  slots : ∀ slot : Slot, s.installed slot = slot.held past

end State

/-- A mark says the truth.  An event calls whom it summons in a session whose slots hold what the
    log says, and a call leaves the handler that was set last. -/
def Mark.Fits (origin : State) (past : List Mark) : Mark → Prop
  | .acts k action =>
    (((origin.connectionAt k).run (courseOf k past)).step action).delivery? = none
  | .sets _ _ => True
  | .hands k queue d called =>
    let popped := ((origin.connectionAt k).run (courseOf k past)).step (.next queue)
    popped.delivery? = some d ∧ ∃ s : State, (s.channel k).connection = popped.after ∧
      (∀ slot, s.installed slot = slot.held past) ∧ called = s.summoned k d
  | .returns d installed => ∀ slot, slot? d = some slot → installed slot = slot.latest past

/-- Every mark of a log fits what has happened before. -/
def Fits (origin : State) (past : List Mark) : List Mark → Prop
  | [] => True
  | mark :: log => mark.Fits origin past ∧ Fits origin (past ++ [mark]) log

section

variable {origin : State} {past log more : List Mark}

theorem fits_append :
    Fits origin past (log ++ more) ↔ Fits origin past log ∧ Fits origin (past ++ log) more := by
  induction log generalizing past with
  | nil => simp [Fits]
  | cons mark log ih => simp [Fits, ih, and_assoc]

theorem Fits.of_split {before after : List Mark} {mark : Mark} (fits : Fits origin past log)
    (split : log = before ++ mark :: after) : mark.Fits origin (past ++ before) := by
  subst split
  exact (fits_append.1 fits).2.1

end

namespace State

variable {origin s t left ended : State} {slot : Slot} {patience : Nat} {scope : Scope}
  {log inner past : List Mark} {k : ConnectionRef} {queue : QueueId} {d : Delivery ObjectData}
  {call : Invocation} {act : Act}

/-! ### What each mark does -/

namespace Stands

/-- Connections take the actions of the log anyway, so the slots are what is left to see to. -/
theorem move (stands : Stands origin past s) (passes : s.Passes patience scope log t)
    (slots : ∀ slot : Slot, t.installed slot = slot.held (past ++ log)) :
    Stands origin (past ++ log) t := by
  refine ⟨fun k => ?_, slots⟩
  rw [passes.moves.2.2, stands.connections, courseOf_append, Connection.run_append]

/-- An event calls whom it summons once it was handed out. -/
theorem handed (stands : Stands origin past s) (handed : s.handsOut k queue = some d) :
    (Mark.hands k queue d ((s.popped k queue).summoned k d)).Fits origin past := by
  have known := lt_of_delivery handed
  dsimp only [Mark.Fits]
  rw [← stands.connections, connectionAt_of_lt known]
  refine ⟨handed, s.popped k queue, ?_, stands.slots, rfl⟩
  rw [State.popped, channel_putChannel known]

/-- Either the slot is still empty, or the handler set last is in it. -/
theorem putBack {h : Handler} (stands : Stands origin (past ++ log) left)
    (runs : s.Passes patience scope log left) (set : slot.latest past = some h) :
    (left.installed slot <|> some h) = slot.latest (past ++ log) := by
  rw [stands.slots, Slot.held]
  cases running : slot.busy (past ++ log) with
  | true =>
    rw [(runs.busy_before running).2, set]
    rfl
  | false =>
    have still : (slot.latest (past ++ log)).isSome := slot.latest_append (by simp [set]) log
    obtain ⟨last, latest⟩ := Option.isSome_iff_exists.1 still
    rw [latest]
    rfl

end Stands

/-- Whoever is called for a slot was in it. -/
theorem Calls.found {begun : State} (called : Calls act s k d call begun left ended)
    (mine : slot? d = some slot) : ∃ h, s.installed slot = some h := by
  obtain ⟨⟨cell, tidings⟩, brings, rfl⟩ := Option.map_eq_some_iff.1 mine
  have summoned := called.summoned
  rw [summoned_tidings brings, Option.map_eq_some_iff] at summoned
  obtain ⟨h, found, _⟩ := summoned
  exact ⟨h, found⟩

/-- What a call leaves in the slots: the handler set last is in the slot of the event again, the one
    that was called or one that was set meanwhile. -/
theorem Calls.slots {begun : State}
    (called : Calls act (s.popped k queue) k d call begun left ended)
    (stands : Stands origin past s) (runs : begun.Passes patience scope inner left)
    (leaves : Stands origin (past ++ [.hands k queue d (some call)] ++ inner) left) (slot : Slot) :
    ended.installed slot =
      if slot? d = some slot then
        slot.latest (past ++ [.hands k queue d (some call)] ++ inner)
      else slot.held (past ++ [.hands k queue d (some call)] ++ inner) := by
  have known : ∀ slot ∈ slot? d, slot.cell < left.registries.length := by
    intro slot mine
    obtain ⟨h, found⟩ := called.found mine
    refine Nat.lt_of_lt_of_le (lt_of_installed found) ?_
    exact Nat.le_trans (Nat.le_of_eq called.begins.registries.symm) runs.registries
  rw [called.putBack known]
  by_cases mine : slot? d = some slot
  · obtain ⟨h, found⟩ := called.found mine
    have there : slot.held past = some h := (stands.slots slot).symm.trans found
    have set : slot.latest (past ++ [.hands k queue d (some call)]) = some h := by
      rw [Slot.latest_other _ _ (by simp), slot.latest_of_held there]
    rw [if_pos mine, if_pos mine, found, leaves.putBack runs set]
  · rw [if_neg mine, if_neg mine, leaves.slots]

/-- A session is as the log says all the time.  The induction is on how the session moves on; a call
    is one of its steps, and what the handler does meanwhile has a log of its own. -/
theorem Passes.fits (passes : s.Passes patience scope log t) (stands : Stands origin past s) :
    Fits origin past log ∧ ∀ slot : Slot, t.installed slot = slot.held (past ++ log) := by
  induction passes generalizing past with
  | done =>
    rw [List.append_nil]
    exact ⟨trivial, stands.slots⟩
  | append first _ before after =>
    obtain ⟨fits, midway⟩ := before stands
    obtain ⟨more, last⟩ := after (stands.move first midway)
    rw [← List.append_assoc]
    exact ⟨fits_append.2 ⟨fits, more⟩, last⟩
  | step _ ih => exact ih ⟨stands.connections, stands.slots⟩
  | quiet quiet =>
    rw [List.append_nil]
    exact ⟨trivial, fun slot => (quiet.installed slot).trans (stands.slots slot)⟩
  | acts known silent =>
    rw [← connectionAt_of_lt known, stands.connections] at silent
    refine ⟨⟨silent, trivial⟩, fun slot => ?_⟩
    rw [Slot.held_acts]
    exact stands.slots slot
  | sets known =>
    refine ⟨⟨trivial, trivial⟩, fun slot => ?_⟩
    rw [installed_reinstall known, Slot.held_sets, stands.slots]
  | misses handed nobody only =>
    refine ⟨⟨nobody ▸ stands.handed handed, trivial⟩, fun slot => ?_⟩
    rw [only.installed, if_neg (by simp), Slot.held_misses]
    exact stands.slots slot
  | @calls _ s begun left ended k queue d call inner handed called inside ih =>
    have begins : Stands origin (past ++ [.hands k queue d (some call)]) begun := by
      refine ⟨fun j => ?_, fun slot => ?_⟩
      · rw [called.begins.popped_connections handed, stands.connections, courseOf_append,
          Connection.run_append]
      · rw [called.begins.installed, Slot.held_calls, ← stands.slots]
        rfl
    obtain ⟨fits, leaves⟩ := ih begins
    have slots := called.slots stands inside (begins.move inside leaves)
    have fit : (Mark.hands k queue d (some call)).Fits origin past :=
      called.summoned ▸ stands.handed handed
    have returned : (Mark.returns d ended.installed).Fits origin
        (past ++ [.hands k queue d (some call)] ++ inner) := fun slot mine => by
      rw [slots, if_pos mine]
    refine ⟨⟨fit, fits_append.2 ⟨fits, returned, trivial⟩⟩, fun slot => ?_⟩
    rw [append_call, Slot.held_returns, slots]

/-- Nothing runs at the start, so nothing does at the end. -/
theorem Passes.installed (passes : s.Passes patience scope log t) (stands : Stands origin [] s)
    (slot : Slot) : t.installed slot = slot.latest log := by
  have idle : slot.busy log = false := by
    refine Bool.eq_false_iff.2 fun running => ?_
    have before : slot.busy [] = true := (passes.busy_before running).1
    exact Bool.false_ne_true before
  rw [(passes.fits stands).2, List.nil_append, Slot.held, idle]
  rfl

end State

end Wayland.Session
