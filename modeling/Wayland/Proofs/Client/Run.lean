import Wayland.Proofs.Client.Operations

/-! # Runs of a connection

Everything that can happen to a connection is an `Action`: an operation with what its caller gives
and what the socket answers meanwhile.  Operations are atomic, so whatever threads and handlers
do, a run is a list of actions one after the other.  `Connection.trace` keeps each step of a run
with its result, its notes and the state on both sides; statements about runs speak of what steps
of the trace show.

`Step.Effect` lists what a step can have done, and `step_effect` says that the list is complete.
`trace_invariant` is the induction over runs.  Every fact about runs rests on these two.
-/

namespace Wayland.Client

variable {δ : Type}

/-- Something that is done to a connection. -/
inductive Action (δ : Type)
  | create (factory : ObjectRef) (interface : Interface) (version : UInt32)
  | adopt (id : ObjectId) (interface : Interface)
  | release (o : ObjectRef)
  | request (o : ObjectRef) (opcode : UInt16) (args : List Argument) (final : Bool)
      (outcomes : List SendOutcome)
  | flush (outcomes : List SendOutcome)
  | attach (o : ObjectRef) (interface : Interface) (handlers : Nat) (data : δ)
  | setQueue (o : ObjectRef) (queue : QueueId)
  | createQueue
  | destroyQueue (queue : QueueId)
  | prepareRead (queue : QueueId)
  /-- A reader withdraws its intention by reading; only the last one of a round reads. -/
  | read (outcomes : List ReadOutcome)
  | cancelRead
  /-- A queue is asked for the next event to be delivered. -/
  | next (queue : QueueId)
  | close (outcomes : List SendOutcome)

/-- What came of an action. -/
structure Report where
  /-- Why it was refused. -/
  refused : Option ClientError := none
  /-- The object that the caller got. -/
  object : Option ObjectRef := none
  /-- What the socket took meanwhile. -/
  transfers : List Transfer := []

/-- Why there is no result. -/
def refusal {α : Type} : Except ClientError α → Option ClientError
  | .ok _ => none
  | .error cause => some cause

namespace Connection

/-- The report of an operation that leaves the connection alone if it fails. -/
def settle (c : Connection δ) :
    Except ClientError (Option ObjectRef × Connection δ) → Report × Connection δ
  | .ok (object, c) => ({ object }, c)
  | .error cause => ({ refused := some cause }, c)

/-- Does what an action says. -/
def perform (c : Connection δ) : Action δ → Logged (Report × Connection δ)
  | .create factory interface version =>
    pure (c.settle ((c.createObject factory interface version).map fun (o, c) => (some o, c)))
  | .adopt id interface =>
    pure (c.settle ((c.adoptObject id interface).map fun (o, c) => (some o, c)))
  | .release o => do return ({}, ← c.releaseObject o)
  | .request o opcode args final outcomes => do
    let (result, transfers, c) ← c.sendRequest o opcode args final outcomes
    return ({ refused := refusal result, transfers }, c)
  | .flush outcomes => do
    let (result, transfers, c) ← c.flush outcomes
    return ({ refused := refusal result, transfers }, c)
  | .attach o interface handlers data => do
    let result ← c.attach o interface handlers data
    return c.settle (result.map fun (_, c) => (none, c))
  | .setQueue o queue => pure (c.settle ((c.setQueue o queue).map fun c => (none, c)))
  | .createQueue => do
    let result ← c.createQueue
    return c.settle (result.map fun (_, c) => (none, c))
  | .destroyQueue queue => do return ({}, ← c.destroyQueue queue)
  | .prepareRead queue => pure (c.settle ((c.prepareRead queue).map fun c => (none, c)))
  | .read outcomes =>
    match c.gate.withdraw with
    | (.last, gate) => do
      let (result, _, c) ← { c with gate }.readRound outcomes
      return ({ refused := refusal result }, c)
    | (_, gate) => pure ({}, { c with gate })
  | .cancelRead => pure ({}, c.cancelRead)
  | .next queue => do
    let (result, c) ← c.nextEvent queue
    return ({ refused := refusal result }, c)
  | .close outcomes => do
    let (transfers, c) ← c.close outcomes
    return ({ transfers }, c)

end Connection

/-- An action that was taken. -/
structure Step (δ : Type) where
  before : Connection δ
  action : Action δ
  report : Report
  notes : List Note
  after : Connection δ

namespace Connection

/-- Takes an action. -/
def step (c : Connection δ) (action : Action δ) : Step δ where
  before := c
  action := action
  report := (c.perform action).value.1
  notes := (c.perform action).notes
  after := (c.perform action).value.2

end Connection

/-! ## What a step can do -/

/-- What a step can have done: it was refused and changed nothing, or it did what its action
    says. -/
inductive Step.Effect : Step δ → Prop
  | refused {c : Connection δ} {action : Action δ} {cause : ClientError} {notes : List Note}
      (noRead : ∀ outcomes, action ≠ .read outcomes) :
    Effect ⟨c, action, { refused := some cause }, notes, c⟩
  | create {c : Connection δ} {factory o : ObjectRef} {interface : Interface} {version : UInt32}
      {entry : Entry δ} {objects : ObjectTable δ} {notes : List Note}
      (usable : c.check = .ok ()) (found : c.current? factory = some entry)
      (inserted : c.objects.insertClient interface version entry.queue =
        .ok (o.id, o.generation, objects)) :
    Effect ⟨c, .create factory interface version, { object := some o }, notes, { c with objects }⟩
  | adopt {c : Connection δ} {id : ObjectId} {o : ObjectRef} {interface : Interface}
      {entry : Entry δ} {notes : List Note} (usable : c.check = .ok ())
      (found : c.objects.live? id = some entry) (free : entry.owned = false) :
    Effect ⟨c, .adopt id interface, { object := some o }, notes,
      { c with objects := c.objects.put id { entry with owned := true } }⟩
  | release {c : Connection δ} {o : ObjectRef} {notes : List Note} :
    Effect ⟨c, .release o, {}, notes,
      { c with objects := (c.objects.release o.id o.generation).value }⟩
  /-- The flush at the end uses no answers of the socket if the outbox is not full. -/
  | request {c : Connection δ} {o : ObjectRef} {opcode : UInt16} {args : List Argument}
      {final : Bool} {outcomes used : List SendOutcome} {entry : Entry δ}
      {error : Option FatalError} {notes : List Note} {announced objects : ObjectTable δ}
      {outbox : Outbox} (usable : c.check = .ok ()) (found : c.current? o = some entry)
      (heard : announced =
        (args.filterMap Argument.newId?).foldl ObjectTable.markAnnounced c.objects)
      (released : objects =
        if final then (announced.release o.id o.generation).value else announced)
      (queued : outbox = c.outbox.append (Message.encode o.id opcode args)) :
    Effect ⟨c, .request o opcode args final outcomes,
      { transfers := (outbox.flush used).transfers }, notes,
      { c with outbox := (outbox.flush used).outbox, objects, error }⟩
  | flush {c : Connection δ} {outcomes : List SendOutcome} {refused : Option ClientError}
      {error : Option FatalError} {notes : List Note} (usable : c.check = .ok ())
      (done : refused = none ↔ (c.outbox.flush outcomes).stop = none) :
    Effect ⟨c, .flush outcomes, { refused, transfers := (c.outbox.flush outcomes).transfers },
      notes, { c with outbox := (c.outbox.flush outcomes).outbox, error }⟩
  | attach {c : Connection δ} {o : ObjectRef} {interface : Interface} {handlers : Nat} {data : δ}
      {entry : Entry δ} {notes : List Note} (usable : c.check = .ok ())
      (found : c.current? o = some entry) (free : entry.data = none) :
    Effect ⟨c, .attach o interface handlers data, {}, notes,
      { c with objects := c.objects.put o.id { entry with data := some data } }⟩
  | attachAgain {c : Connection δ} {o : ObjectRef} {interface : Interface} {handlers : Nat}
      {data : δ} {notes : List Note} (usable : c.check = .ok ()) :
    Effect ⟨c, .attach o interface handlers data, {}, notes, c⟩
  | setQueue {c : Connection δ} {o : ObjectRef} {queue : QueueId} {entry : Entry δ}
      {notes : List Note} (usable : c.check = .ok ()) (exist : c.queues.contains queue = true)
      (found : c.current? o = some entry) :
    Effect ⟨c, .setQueue o queue, {}, notes,
      { c with objects := c.objects.put o.id { entry with queue } }⟩
  | createQueue {c : Connection δ} {notes : List Note} (usable : c.check = .ok ()) :
    Effect ⟨c, .createQueue, {}, notes, { c with queues := c.queues.create.2 }⟩
  | destroyQueue {c : Connection δ} {queue : QueueId} {notes : List Note} :
    Effect ⟨c, .destroyQueue queue, {}, notes,
      { c with
        objects := c.objects.reassignQueue queue QueueId.default
        queues := (c.queues.remove queue).2 }⟩
  | prepareRead {c : Connection δ} {queue : QueueId} {notes : List Note}
      (usable : c.check = .ok ()) (empty : c.queues.get? queue = some []) :
    Effect ⟨c, .prepareRead queue, {}, notes, { c with gate := c.gate.declare }⟩
  /-- The last reader of a round. -/
  | read {c : Connection δ} {outcomes : List ReadOutcome} {refused : Option ClientError}
      {gate : ReadGate} (last : c.gate.withdraw = (.last, gate)) :
    Effect ⟨c, .read outcomes, { refused }, ({ c with gate }.readRound outcomes).notes,
      ({ c with gate }.readRound outcomes).value.2.2⟩
  /-- A reader that others have to wait for no longer. -/
  | withdraw {c : Connection δ} {outcomes : List ReadOutcome} {gate : ReadGate}
      (more : ∀ gate, c.gate.withdraw ≠ (.last, gate)) :
    Effect ⟨c, .read outcomes, {}, [], { c with gate }⟩
  | cancelRead {c : Connection δ} {gate : ReadGate} {notes : List Note} :
    Effect ⟨c, .cancelRead, {}, notes, { c with gate }⟩
  | next {c : Connection δ} {queue : QueueId} {events : List QueuedEvent} {notes : List Note}
      (usable : c.check = .ok ()) (exist : c.queues.get? queue = some events) :
    Effect ⟨c, .next queue, {}, notes,
      { c with
        queues := c.queues.set queue (Connection.firstDelivery c.objects events).value.2 }⟩
  | close {c : Connection δ} {outcomes : List SendOutcome} {error : Option FatalError}
      {notes : List Note} (isOpen : c.closed = false) :
    Effect ⟨c, .close outcomes, { transfers := (c.outbox.flush outcomes).transfers }, notes,
      { c with
        outbox := (c.outbox.flush outcomes).outbox, error, closed := true
        objects := c.objects.clear, queues := c.queues.clear }⟩
  | closeAgain {c : Connection δ} {outcomes : List SendOutcome} {notes : List Note}
      (closed : c.closed = true) :
    Effect ⟨c, .close outcomes, {}, notes, c⟩

theorem refusal_eq_none {α : Type} {result : Except ClientError α} :
    refusal result = none ↔ ∃ a, result = .ok a := by
  cases result <;> simp [refusal]

namespace Connection

theorem step_effect (c : Connection δ) (action : Action δ) : (c.step action).Effect := by
  unfold step
  cases action with
  | create factory interface version =>
    simp only [perform]
    cases created : c.createObject factory interface version with
    | error cause => exact .refused nofun
    | ok result =>
      obtain ⟨o, c'⟩ := result
      obtain ⟨_, _, usable, found, inserted, rfl⟩ := createObject_ok created
      exact .create usable found inserted
  | adopt id interface =>
    simp only [perform]
    cases adopted : c.adoptObject id interface with
    | error cause => exact .refused nofun
    | ok result =>
      obtain ⟨o, c'⟩ := result
      obtain ⟨_, usable, found, free, _, rfl⟩ := adoptObject_ok adopted
      exact .adopt usable found free
  | release o => exact .release
  | request o opcode args final outcomes =>
    obtain ⟨cause, value⟩ | ⟨_, _, _, _, _, usable, found, heard, released, value⟩ :=
      sendRequest_value c o opcode args final outcomes
    · simp only [perform, Logged.value_bind, Logged.value_pure, value]
      exact .refused nofun
    · simp only [perform, Logged.value_bind, Logged.value_pure, value]
      exact .request usable found heard released rfl
  | flush outcomes =>
    obtain ⟨cause, value⟩ | ⟨usable, result, error, value, done⟩ := flush_value c outcomes
    · simp only [perform, Logged.value_bind, Logged.value_pure, value]
      exact .refused nofun
    · simp only [perform, Logged.value_bind, Logged.value_pure, value]
      exact .flush usable (refusal_eq_none.trans done)
  | attach o interface handlers data =>
    simp only [perform, Logged.value_bind, Logged.value_pure]
    cases attached : (c.attach o interface handlers data).value with
    | error cause => exact .refused nofun
    | ok result =>
      obtain ⟨first, c'⟩ := result
      obtain ⟨_, usable, found, ⟨_, _, rfl⟩ | ⟨free, _, rfl⟩⟩ := attach_ok attached
      · exact .attachAgain usable
      · exact .attach usable found free
  | setQueue o queue =>
    simp only [perform]
    cases moved : c.setQueue o queue with
    | error cause => exact .refused nofun
    | ok c' =>
      obtain ⟨_, usable, exist, found, rfl⟩ := setQueue_ok moved
      exact .setQueue usable exist found
  | createQueue =>
    simp only [perform, Logged.value_bind, Logged.value_pure]
    cases created : c.createQueue.value with
    | error cause => exact .refused nofun
    | ok result =>
      obtain ⟨queue, c'⟩ := result
      obtain ⟨usable, _, rfl⟩ := createQueue_ok created
      exact .createQueue usable
  | destroyQueue queue =>
    simp only [perform, Logged.value_bind, Logged.value_pure, destroyQueue_value]
    exact .destroyQueue
  | prepareRead queue =>
    simp only [perform]
    cases declared : c.prepareRead queue with
    | error cause => exact .refused nofun
    | ok c' =>
      obtain ⟨usable, empty, rfl⟩ := prepareRead_ok declared
      exact .prepareRead usable empty
  | read outcomes =>
    cases withdrawn : c.gate.withdraw with
    | mk withdrawal gate =>
      cases withdrawal with
      | last =>
        simp only [perform, withdrawn, Logged.value_bind, Logged.value_pure, Logged.notes_bind,
          Logged.notes_pure, List.append_nil]
        exact .read withdrawn
      | wait serial =>
        simp only [perform, withdrawn]
        exact .withdraw (by simp [withdrawn])
      | unpaired =>
        simp only [perform, withdrawn]
        exact .withdraw (by simp [withdrawn])
  | cancelRead =>
    obtain ⟨gate, value⟩ := cancelRead_eq c
    simp only [perform, value]
    exact .cancelRead
  | next queue =>
    obtain ⟨cause, value⟩ | ⟨events, usable, exist, value⟩ := nextEvent_value c queue
    · simp only [perform, Logged.value_bind, Logged.value_pure, value]
      exact .refused nofun
    · simp only [perform, Logged.value_bind, Logged.value_pure, value]
      exact .next usable exist
  | close outcomes =>
    obtain ⟨closed, value⟩ | ⟨isOpen, error, value⟩ := close_value c outcomes
    · simp only [perform, Logged.value_bind, Logged.value_pure, value]
      exact .closeAgain closed
    · simp only [perform, Logged.value_bind, Logged.value_pure, value]
      exact .close isOpen

/-! ## Runs -/

/-- The steps of a run. -/
def trace : Connection δ → List (Action δ) → List (Step δ)
  | _, [] => []
  | c, action :: actions => c.step action :: trace (c.step action).after actions

/-- The connection at the end of a run. -/
def run : Connection δ → List (Action δ) → Connection δ
  | c, [] => c
  | c, action :: actions => run (c.step action).after actions

/-- What relates a connection to what steps have shown so far holds at the end of every run, if
    each step keeps it. -/
theorem trace_invariant {α : Type} {shown : Step δ → List α} {I : List α → Connection δ → Prop}
    (keeps : ∀ past c action, I past c →
      I (past ++ shown (c.step action)) (c.step action).after)
    (actions : List (Action δ)) {past : List α} {c : Connection δ} (holds : I past c) :
    I (past ++ (c.trace actions).flatMap shown) (c.run actions) := by
  induction actions generalizing past c with
  | nil => simpa [trace, run] using holds
  | cons action actions ih =>
    have rest := ih (keeps past c action holds)
    simpa [trace, run, List.append_assoc] using rest

theorem run_append (c : Connection δ) (past future : List (Action δ)) :
    c.run (past ++ future) = (c.run past).run future := by
  induction past generalizing c with
  | nil => rfl
  | cons action past ih => exact ih _

theorem trace_append (c : Connection δ) (past future : List (Action δ)) :
    c.trace (past ++ future) = c.trace past ++ (c.run past).trace future := by
  induction past generalizing c with
  | nil => rfl
  | cons action past ih => simp [trace, run, ih]

/-- A step of a run is taken where the actions in front of it lead. -/
theorem exists_of_mem_trace {c : Connection δ} {actions : List (Action δ)} {s : Step δ}
    (mem : s ∈ c.trace actions) :
    ∃ past action future, actions = past ++ action :: future ∧ s = (c.run past).step action := by
  induction actions generalizing c with
  | nil => cases mem
  | cons first actions ih =>
    obtain rfl | later := List.mem_cons.1 mem
    · exact ⟨[], first, actions, rfl, rfl⟩
    · obtain ⟨past, action, future, rfl, taken⟩ := ih later
      exact ⟨first :: past, action, future, rfl, taken⟩

/-- Where the steps of a run are split, so are its actions. -/
theorem exists_of_trace_eq {c : Connection δ} {actions : List (Action δ)}
    {past future : List (Step δ)} {s : Step δ} (taken : c.trace actions = past ++ s :: future) :
    ∃ before action after, actions = before ++ action :: after ∧ past = c.trace before ∧
      s = (c.run before).step action ∧ future = s.after.trace after := by
  induction actions generalizing c past with
  | nil => simp [trace] at taken
  | cons first actions ih =>
    cases past with
    | nil =>
      obtain ⟨rfl, rfl⟩ := List.cons.inj taken
      exact ⟨[], first, actions, rfl, rfl, rfl, rfl⟩
    | cons step past =>
      obtain ⟨rfl, others⟩ := List.cons.inj taken
      obtain ⟨before, action, after, rfl, rfl, here, rest⟩ := ih others
      exact ⟨first :: before, action, after, rfl, rfl, here, rest⟩

end Connection

end Wayland.Client
