import Wayland.Proofs.Client.Queues

/-! # Many readers of one connection

Threads and tasks share a connection.  Each declares the intention to read on behalf of a queue,
and gives it up by reading or by cancelling.  `Shared` is a connection with all its readers, and a
run is a list of moves in any order: a move is what somebody does while holding the lock of the
connection, or what happens without it.

A reader that is not the last one of its round waits.  A thread checks and falls asleep without
letting go of the lock in between.  A task lets go of it first, so it listens for news before it
checks, and then sleeps only if there was none.  Whoever ends a round, or closes the connection,
owes the others a notification, and gives it after letting go of the lock, to threads and to
tasks separately.

`Turn.Effect` lists what a turn can have done.  The list has no case in which somebody withdraws an
intention that is not there; that is what `Accounted` is for.
-/

namespace Wayland.Client

variable {δ : Type}

/-- The two ways of waiting for the end of a round. -/
inductive Waiter
  | thread | task
  deriving DecidableEq

/-- What a reader gets in the end. -/
inductive Answer
  /-- For a thread, how many bytes were read. -/
  | count (result : Except ClientError Nat)
  /-- For a task, how many bytes were read, if it did the reading. -/
  | share (result : Except ClientError (Option Nat))

/-- How far a reader is with waiting.  `told` says that there was a notification meanwhile. -/
inductive Wait
  | awake
  | listening (told : Bool)
  | asleep (told : Bool)

/-- How far a reader is. -/
inductive Stage
  | declared
  /-- It has withdrawn its intention and waits for the end of the round with a serial number. -/
  | waiting (kind : Waiter) (serial : UInt64) (wait : Wait)
  | returned (answer : Answer)
  /-- It has given up. -/
  | gone

structure Reader where
  /-- The queue it wants to read events for. -/
  queue : QueueId
  stage : Stage

namespace Stage

/-- The intention to read is not yet withdrawn. -/
def isDeclared : Stage → Bool
  | .declared => true
  | _ => false

@[simp] theorem isDeclared_iff {stage : Stage} : stage.isDeclared = true ↔ stage = .declared := by
  cases stage <;> simp [isDeclared]

/-- A notification reaches those who listen or sleep. -/
def tell (kind : Waiter) : Stage → Stage
  | .waiting other serial wait =>
    if other = kind then
      match wait with
      | .awake => .waiting other serial .awake
      | .listening _ => .waiting other serial (.listening true)
      | .asleep _ => .waiting other serial (.asleep true)
    else .waiting other serial wait
  | stage => stage

@[simp] theorem isDeclared_tell (kind : Waiter) (stage : Stage) :
    (stage.tell kind).isDeclared = stage.isDeclared := by
  cases stage with
  | waiting other serial wait =>
    by_cases same : other = kind <;> cases wait <;> simp [tell, isDeclared, same]
  | _ => rfl

end Stage

namespace Waiter

/-- The answer to a reader that has read. -/
def answer (result : Except ClientError Nat) : Waiter → Answer
  | .thread => .count result
  | .task => .share (result.map some)

/-- The answer to a reader that has waited. -/
def waited (result : Except ClientError Unit) : Waiter → Answer
  | .thread => .count (result.map fun _ => 0)
  | .task => .share (result.map fun _ => none)

/-- A waiting reader checks, and goes on waiting if the round is not over. -/
def look (c : Connection δ) (serial : UInt64) (wait : Wait) (kind : Waiter) : Stage :=
  match c.waitOver? serial with
  | some result => .returned (kind.waited result)
  | none => .waiting kind serial wait

/-- A reader begins to wait. -/
def start (c : Connection δ) (serial : UInt64) : Waiter → Stage
  | .thread => look c serial (.asleep false) .thread
  | .task => .waiting .task serial .awake

/-- What a waiting reader does next.  A thread may wake up without reason and checks every time;
    a task sleeps until it is told. -/
def proceed (c : Connection δ) (serial : UInt64) : Waiter → Wait → Stage
  | .thread, _ => look c serial (.asleep false) .thread
  | .task, .awake => .waiting .task serial (.listening false)
  | .task, .listening told => look c serial (.asleep told) .task
  | .task, .asleep true => .waiting .task serial .awake
  | .task, .asleep false => .waiting .task serial (.asleep false)

@[simp] theorem isDeclared_look (c : Connection δ) (serial : UInt64) (wait : Wait)
    (kind : Waiter) : (look c serial wait kind).isDeclared = false := by
  unfold look
  split <;> rfl

@[simp] theorem isDeclared_start (c : Connection δ) (serial : UInt64) (kind : Waiter) :
    (kind.start c serial).isDeclared = false := by
  cases kind with
  | thread => exact isDeclared_look ..
  | task => rfl

@[simp] theorem isDeclared_proceed (c : Connection δ) (serial : UInt64) (kind : Waiter)
    (wait : Wait) : (kind.proceed c serial wait).isDeclared = false := by
  unfold proceed
  split
  · exact isDeclared_look ..
  · rfl
  · exact isDeclared_look ..
  · rfl
  · rfl

end Waiter

/-- Whether an action is that of a reader. -/
def Action.isReading : Action δ → Bool
  | .prepareRead _ | .read _ | .cancelRead => true
  | _ => false

/-- Something that somebody does with a shared connection. -/
inductive Move (δ : Type)
  | declare (queue : QueueId)
  /-- A reader reads, as a thread or as a task.  The socket answers at least once. -/
  | read (reader : Nat) (kind : Waiter) (first : ReadOutcome) (more : List ReadOutcome)
  /-- A reader cancels, or its intention is dropped. -/
  | cancel (reader : Nat)
  /-- A task is dropped while it waits. -/
  | abandon (reader : Nat)
  | proceed (reader : Nat)
  /-- An owed notification is given. -/
  | notify (kind : Waiter)
  | other (action : Action δ) (apart : action.isReading = false)

/-- A connection, everybody who has ever wanted to read from it, and how many notifications are
    owed. -/
structure Shared (δ : Type) where
  connection : Connection δ
  readers : List Reader
  owed : Waiter → Nat

/-- What comes of a move. -/
structure Outcome (δ : Type) where
  /-- What withdrawing an intention means for the reader. -/
  withdrawal : Option Withdrawal := none
  /-- How often the socket was asked for something to read. -/
  attempts : Nat := 0
  after : Shared δ

/-- A move that was made. -/
structure Turn (δ : Type) extends Outcome δ where
  before : Shared δ
  move : Move δ

namespace Shared

/-- Nobody has wanted to read so far. -/
def initial (protocol : Protocol) : Shared δ where
  connection := Connection.initial protocol
  readers := []
  owed := fun _ => 0

/-- How many intentions to read are not yet withdrawn. -/
def unconsumed (s : Shared δ) : Nat := s.readers.countP (·.stage.isDeclared)

/-- One more notification is owed to everybody. -/
def owe (s : Shared δ) : Waiter → Nat := fun kind => s.owed kind + 1

/-- Makes a move.  A move that its reader cannot make changes nothing. -/
def make (s : Shared δ) : Move δ → Outcome δ
  | .declare queue =>
    match s.connection.prepareRead queue with
    | .error _ => { after := s }
    | .ok connection =>
      { after := { s with connection, readers := s.readers ++ [⟨queue, .declared⟩] } }
  | .read i kind first more =>
    match s.readers[i]? with
    | some ⟨queue, .declared⟩ =>
      let (reading, attempts, connection) := (s.connection.readEvents (first :: more)).value
      { withdrawal := some s.connection.gate.withdraw.1, attempts
        after :=
          match reading with
          | .done result =>
            { connection, owed := s.owe
              readers := s.readers.set i ⟨queue, .returned (kind.answer result)⟩ }
          | .waiting serial =>
            { s with
              connection, readers := s.readers.set i ⟨queue, kind.start connection serial⟩ }
          | .unpaired =>
            { s with
              connection
              readers := s.readers.set i ⟨queue, .returned (kind.waited connection.check)⟩ } }
    | _ => { after := s }
  | .cancel i =>
    match s.readers[i]? with
    | some ⟨queue, .declared⟩ =>
      let withdrawal := s.connection.gate.withdraw.1
      { withdrawal := some withdrawal
        after :=
          { connection := s.connection.cancelRead
            readers := s.readers.set i ⟨queue, .gone⟩
            owed := if withdrawal = .last then s.owe else s.owed } }
    | _ => { after := s }
  | .abandon i =>
    match s.readers[i]? with
    | some ⟨queue, .waiting .task _ _⟩ =>
      { after := { s with readers := s.readers.set i ⟨queue, .gone⟩ } }
    | _ => { after := s }
  | .proceed i =>
    match s.readers[i]? with
    | some ⟨queue, .waiting kind serial wait⟩ =>
      { after :=
          { s with
            readers := s.readers.set i ⟨queue, kind.proceed s.connection serial wait⟩ } }
    | _ => { after := s }
  | .notify kind =>
    match s.owed kind with
    | 0 => { after := s }
    | owed + 1 =>
      { after :=
          { s with
            readers := s.readers.map fun r => { r with stage := r.stage.tell kind }
            owed := fun other => if other = kind then owed else s.owed other } }
  | .other action _ =>
    let connection := (s.connection.step action).after
    { after :=
        { s with
          connection
          -- Only the one that really closes the connection tells the others.
          owed := if connection.closed && !s.connection.closed then s.owe else s.owed } }

/-- Makes a move and keeps what was there before. -/
def turn (s : Shared δ) (move : Move δ) : Turn δ := { s.make move with before := s, move }

/-- The turns of a run. -/
def trace : Shared δ → List (Move δ) → List (Turn δ)
  | _, [] => []
  | s, move :: moves => s.turn move :: trace (s.turn move).after moves

/-- What a run leads to. -/
def run : Shared δ → List (Move δ) → Shared δ
  | s, [] => s
  | s, move :: moves => run (s.turn move).after moves

/-- The gate counts the intentions that are not yet withdrawn. -/
def Accounted (s : Shared δ) : Prop := s.connection.gate.readers = s.unconsumed

end Shared

/-! ## What a turn can do -/

namespace Turn

/-- What a turn can have done. -/
inductive Effect : Turn δ → Prop
  | idle {s : Shared δ} {move : Move δ} : Effect { before := s, move, after := s }
  | declare {s : Shared δ} {queue : QueueId} (usable : s.connection.check = .ok ())
      (empty : s.connection.queues.get? queue = some []) :
    Effect
      { before := s, move := .declare queue
        after :=
          { s with
            connection := { s.connection with gate := s.connection.gate.declare }
            readers := s.readers ++ [⟨queue, .declared⟩] } }
  /-- The last reader of a round reads. -/
  | read {s : Shared δ} {i : Nat} {kind : Waiter} {first : ReadOutcome} {more : List ReadOutcome}
      {queue : QueueId} {gate : ReadGate} {result : Except ClientError Nat} {attempts : Nat}
      {connection : Connection δ} (found : s.readers[i]? = some ⟨queue, .declared⟩)
      (last : s.connection.gate.withdraw = (.last, gate))
      (round : ({ s.connection with gate }.readRound (first :: more)).value =
        (result, attempts, connection)) :
    Effect
      { before := s, move := .read i kind first more, withdrawal := some .last, attempts
        after :=
          { connection, owed := s.owe
            readers := s.readers.set i ⟨queue, .returned (kind.answer result)⟩ } }
  /-- A reader has to wait for the others. -/
  | wait {s : Shared δ} {i : Nat} {kind : Waiter} {first : ReadOutcome} {more : List ReadOutcome}
      {queue : QueueId} {serial : UInt64} {gate : ReadGate}
      (found : s.readers[i]? = some ⟨queue, .declared⟩)
      (others : s.connection.gate.withdraw = (.wait serial, gate)) :
    Effect
      { before := s, move := .read i kind first more, withdrawal := some (.wait serial)
        after :=
          { s with
            connection := { s.connection with gate }
            readers := s.readers.set i ⟨queue, kind.start { s.connection with gate } serial⟩ } }
  /-- The last reader of a round cancels. -/
  | cancel {s : Shared δ} {i : Nat} {queue : QueueId} {gate : ReadGate}
      (found : s.readers[i]? = some ⟨queue, .declared⟩)
      (last : s.connection.gate.withdraw = (.last, gate)) :
    Effect
      { before := s, move := .cancel i, withdrawal := some .last
        after :=
          { connection := { s.connection with gate := gate.finishRound }
            readers := s.readers.set i ⟨queue, .gone⟩
            owed := s.owe } }
  | cancelEarly {s : Shared δ} {i : Nat} {queue : QueueId} {serial : UInt64} {gate : ReadGate}
      (found : s.readers[i]? = some ⟨queue, .declared⟩)
      (others : s.connection.gate.withdraw = (.wait serial, gate)) :
    Effect
      { before := s, move := .cancel i, withdrawal := some (.wait serial)
        after :=
          { s with
            connection := { s.connection with gate }
            readers := s.readers.set i ⟨queue, .gone⟩ } }
  | abandon {s : Shared δ} {i : Nat} {queue : QueueId} {serial : UInt64} {wait : Wait}
      (found : s.readers[i]? = some ⟨queue, .waiting .task serial wait⟩) :
    Effect
      { before := s, move := .abandon i
        after := { s with readers := s.readers.set i ⟨queue, .gone⟩ } }
  | proceed {s : Shared δ} {i : Nat} {queue : QueueId} {kind : Waiter} {serial : UInt64}
      {wait : Wait} (found : s.readers[i]? = some ⟨queue, .waiting kind serial wait⟩) :
    Effect
      { before := s, move := .proceed i
        after :=
          { s with
            readers := s.readers.set i ⟨queue, kind.proceed s.connection serial wait⟩ } }
  | notify {s : Shared δ} {kind : Waiter} {owed : Nat} (some : s.owed kind = owed + 1) :
    Effect
      { before := s, move := .notify kind
        after :=
          { s with
            readers := s.readers.map fun r => { r with stage := r.stage.tell kind }
            owed := fun other => if other = kind then owed else s.owed other } }
  | other {s : Shared δ} {action : Action δ} {apart : action.isReading = false} :
    Effect
      { before := s, move := .other action apart
        after :=
          { s with
            connection := (s.connection.step action).after
            owed :=
              if (s.connection.step action).after.closed && !s.connection.closed then s.owe
              else s.owed } }

end Turn

namespace ReadGate

variable {g g' : ReadGate} {serial : UInt64}

theorem withdraw_last (last : g.withdraw = (.last, g')) :
    g.readers = 1 ∧ g' = { g with readers := 0 } := by
  unfold withdraw at last
  split at last
  · cases last
  next one =>
    cases last
    exact ⟨one, rfl⟩
  · cases last

theorem withdraw_wait (others : g.withdraw = (.wait serial, g')) :
    2 ≤ g.readers ∧ serial = g.serial ∧ g' = { g with readers := g.readers - 1 } := by
  unfold withdraw at others
  split at others
  · cases others
  · cases others
  next n more =>
    cases others
    exact ⟨by omega, rfl, by rw [more]; rfl⟩

theorem withdraw_unpaired (unpaired : g.withdraw = (.unpaired, g')) : g.readers = 0 := by
  unfold withdraw at unpaired
  split at unpaired
  next none => exact none
  · cases unpaired
  · cases unpaired

end ReadGate

/-- The last reader leaves an empty gate behind, whatever it has read. -/
theorem Connection.gate_of_round {c d : Connection δ} {gate : ReadGate}
    {outcomes : List ReadOutcome} {result : Except ClientError Nat} {attempts : Nat}
    (last : c.gate.withdraw = (.last, gate))
    (round : ({ c with gate }.readRound outcomes).value = (result, attempts, d)) :
    d.gate = { readers := 0, serial := c.gate.serial + 1 } := by
  obtain ⟨_, rfl⟩ := ReadGate.withdraw_last last
  have kept := readRound_kept { c with gate := { c.gate with readers := 0 } } outcomes
  rw [round] at kept
  exact kept.gate

namespace Shared

variable {s : Shared δ} {i : Nat} {queue : QueueId}

theorem unconsumed_pos (found : s.readers[i]? = some ⟨queue, .declared⟩) : 0 < s.unconsumed := by
  have mem := List.mem_of_getElem? found
  exact List.countP_pos_iff.2 ⟨_, mem, rfl⟩

/-- A reader withdraws its intention. -/
theorem Accounted.withdrawn {c : Connection δ} {owed : Waiter → Nat} {stage : Stage}
    (accounted : s.Accounted) (found : s.readers[i]? = some ⟨queue, .declared⟩)
    (withdrawn : stage.isDeclared = false)
    (gate : c.gate.readers + 1 = s.connection.gate.readers) :
    Accounted { connection := c, readers := s.readers.set i ⟨queue, stage⟩, owed } := by
  obtain ⟨inside, same⟩ := List.getElem?_eq_some_iff.1 found
  have declared : Stage.declared.isDeclared = true := rfl
  unfold Accounted unconsumed at accounted ⊢
  rw [List.countP_set inside, same]
  simp only [declared, withdrawn, if_true, Bool.false_eq_true, if_false]
  omega

/-- A reader without an intention goes on. -/
theorem Accounted.later {r : Reader} {stage : Stage} (accounted : s.Accounted)
    (found : s.readers[i]? = some r) (before : r.stage.isDeclared = false)
    (after : stage.isDeclared = false) :
    Accounted { s with readers := s.readers.set i ⟨queue, stage⟩ } := by
  obtain ⟨inside, same⟩ := List.getElem?_eq_some_iff.1 found
  unfold Accounted unconsumed at accounted ⊢
  rw [List.countP_set inside, same]
  simpa [before, after] using accounted

theorem turn_effect (accounted : s.Accounted) (move : Move δ) : (s.turn move).Effect := by
  unfold Accounted at accounted
  cases move with
  | declare queue =>
    cases declared : s.connection.prepareRead queue with
    | error cause =>
      simp only [turn, make, declared]
      exact .idle
    | ok c =>
      obtain ⟨usable, empty, rfl⟩ := Connection.prepareRead_ok declared
      simp only [turn, make, declared]
      exact .declare usable empty
  | read i kind first more =>
    simp only [turn, make]
    split
    next queue found =>
      have some := unconsumed_pos found
      cases withdrawn : s.connection.gate.withdraw with
      | mk withdrawal gate =>
        cases withdrawal with
        | last =>
          simp only [Connection.readEvents, withdrawn, Logged.value_bind, Logged.value_pure]
          exact .read found withdrawn rfl
        | wait serial =>
          simp only [Connection.readEvents, withdrawn, Logged.value_pure]
          exact .wait found withdrawn
        | unpaired =>
          have none := ReadGate.withdraw_unpaired withdrawn
          omega
    · exact .idle
  | cancel i =>
    simp only [turn, make]
    split
    next queue found =>
      have some := unconsumed_pos found
      cases withdrawn : s.connection.gate.withdraw with
      | mk withdrawal gate =>
        cases withdrawal with
        | last =>
          simp only [Connection.cancelRead, withdrawn, if_true]
          exact .cancel found withdrawn
        | wait serial =>
          simp only [Connection.cancelRead, withdrawn, reduceCtorEq, if_false]
          exact .cancelEarly found withdrawn
        | unpaired =>
          have none := ReadGate.withdraw_unpaired withdrawn
          omega
    · exact .idle
  | abandon i =>
    simp only [turn, make]
    split
    next queue serial wait found => exact .abandon found
    · exact .idle
  | proceed i =>
    simp only [turn, make]
    split
    next queue kind serial wait found => exact .proceed found
    · exact .idle
  | notify kind =>
    simp only [turn, make]
    split
    · exact .idle
    next owed some => exact .notify some
  | other action apart => exact .other

end Shared

/-! ## Everything is accounted for -/

namespace Step.Effect

variable {s : Step δ}

/-- Only readers pass the gate. -/
theorem gate_of_apart (effect : s.Effect) (apart : s.action.isReading = false) :
    s.after.gate = s.before.gate := by
  cases effect with
  | prepareRead | read | withdraw | cancelRead => cases apart
  | _ => rfl

/-- Only readers bring new events. -/
theorem pending_of_apart (effect : s.Effect) (apart : s.action.isReading = false)
    {queue : QueueId} (empty : s.before.queues.pending queue = 0) :
    s.after.queues.pending queue = 0 := by
  cases effect with
  | prepareRead | read | withdraw | cancelRead => cases apart
  | createQueue =>
    unfold EventQueues.pending
    rw [EventQueues.get?_create]
    split
    · rfl
    · exact empty
  | destroyQueue =>
    unfold EventQueues.pending
    rw [EventQueues.get?_remove]
    split
    · rfl
    · exact empty
  | @next c _ events _ _ exist =>
    unfold EventQueues.pending at empty ⊢
    rw [EventQueues.get?_set]
    split
    next same =>
      -- What is left of no events is no events.
      subst same
      have none : events = [] := by simpa [exist] using empty
      have left := Connection.firstDelivery_suffix c.objects events
      rw [none, List.suffix_nil] at left
      simp [none, left]
    · exact empty
  | close =>
    unfold EventQueues.pending
    rw [EventQueues.get?_clear]
    rfl
  | _ => exact empty

end Step.Effect

namespace Turn.Effect

variable {t : Turn δ}

theorem accounted (effect : t.Effect) (accounted : t.before.Accounted) : t.after.Accounted := by
  cases effect with
  | idle => exact accounted
  | @declare s queue =>
    show s.connection.gate.readers + 1 = (s.readers ++ [_]).countP _
    rw [List.countP_append]
    exact congrArg (· + 1) accounted
  | read found last round =>
    obtain ⟨one, _⟩ := ReadGate.withdraw_last last
    exact accounted.withdrawn found rfl (by rw [Connection.gate_of_round last round, one])
  | wait found others =>
    obtain ⟨two, _, rfl⟩ := ReadGate.withdraw_wait others
    exact accounted.withdrawn found (Waiter.isDeclared_start ..) (Nat.sub_add_cancel (by omega))
  | cancel found last =>
    obtain ⟨one, rfl⟩ := ReadGate.withdraw_last last
    exact accounted.withdrawn found rfl one.symm
  | cancelEarly found others =>
    obtain ⟨two, _, rfl⟩ := ReadGate.withdraw_wait others
    exact accounted.withdrawn found rfl (Nat.sub_add_cancel (by omega))
  | abandon found => exact accounted.later found rfl rfl
  | proceed found => exact accounted.later found rfl (Waiter.isDeclared_proceed ..)
  | @notify s kind =>
    show s.connection.gate.readers = (s.readers.map _).countP _
    rw [List.countP_map]
    simpa [Function.comp_def, Shared.Accounted, Shared.unconsumed] using accounted
  | @other s action apart =>
    show (s.connection.step action).after.gate.readers = s.unconsumed
    rw [(s.connection.step_effect action).gate_of_apart apart]
    exact accounted

end Turn.Effect

namespace Shared

variable {s : Shared δ}

theorem initial_accounted (protocol : Protocol) : (initial protocol : Shared δ).Accounted := rfl

/-- What relates the turns of a run to the state that they lead to holds at the end of every run,
    if each turn keeps it. -/
theorem trace_invariant {I : List (Turn δ) → Shared δ → Prop}
    (keeps : ∀ past t, t.Effect → t.before.Accounted → I past t.before → I (past ++ [t]) t.after)
    (moves : List (Move δ)) {past : List (Turn δ)} (accounted : s.Accounted) (holds : I past s) :
    I (past ++ s.trace moves) (s.run moves) := by
  induction moves generalizing past s with
  | nil => simpa [trace, run] using holds
  | cons move moves ih =>
    have effect := turn_effect accounted move
    have rest := ih (effect.accounted accounted) (keeps past _ effect accounted holds)
    simpa [trace, run, List.append_assoc] using rest

theorem run_invariant {I : Shared δ → Prop}
    (keeps : ∀ t : Turn δ, t.Effect → t.before.Accounted → I t.before → I t.after)
    (moves : List (Move δ)) (accounted : s.Accounted) (holds : I s) : I (s.run moves) :=
  @trace_invariant δ s (fun _ => I) (fun _ => keeps) moves [] accounted holds

theorem trace_forall {P : Turn δ → Prop} (each : ∀ t : Turn δ, t.Effect → t.before.Accounted → P t)
    (moves : List (Move δ)) (accounted : s.Accounted) : ∀ t ∈ s.trace moves, P t := by
  refine @trace_invariant δ s (fun past _ => ∀ t ∈ past, P t) ?_ moves [] accounted (by simp)
  intro past t effect accounted holds
  simpa [or_imp, forall_and] using ⟨holds, each t effect accounted⟩

theorem run_append (s : Shared δ) (past future : List (Move δ)) :
    s.run (past ++ future) = (s.run past).run future := by
  induction past generalizing s with
  | nil => rfl
  | cons move past ih => exact ih (s.turn move).after

end Shared

/-! ## Readers that have declared their intention -/

theorem declared_of_set {readers : List Reader} {i j : Nat} {queue : QueueId} {r : Reader}
    (declared : (readers.set j r)[i]? = some ⟨queue, .declared⟩)
    (other : r.stage.isDeclared = false) : readers[i]? = some ⟨queue, .declared⟩ := by
  rw [List.getElem?_set] at declared
  split at declared
  · split at declared
    · cases declared
      cases other
    · cases declared
  · exact declared

namespace Turn.Effect

variable {t : Turn δ} {i : Nat} {queue : QueueId}

theorem not_unpaired (effect : t.Effect) : t.withdrawal ≠ some .unpaired := by
  cases effect <;> nofun

/-- Only the last reader reads. -/
theorem unconsumed_of_attempts (effect : t.Effect) (accounted : t.before.Accounted)
    (asked : 0 < t.attempts) : t.after.unconsumed = 0 := by
  have after := effect.accounted accounted
  cases effect with
  | read found last round =>
    have none := Connection.gate_of_round last round
    rw [← after]
    exact congrArg ReadGate.readers none
  | _ => cases asked

theorem length_readers (effect : t.Effect) : t.before.readers.length ≤ t.after.readers.length := by
  cases effect <;> simp

/-- Nobody becomes a reader with an intention but by declaring it, for an empty queue. -/
theorem declared_cases (effect : t.Effect)
    (declared : t.after.readers[i]? = some ⟨queue, .declared⟩) :
    t.before.readers[i]? = some ⟨queue, .declared⟩ ∨
      i = t.before.readers.length ∧ t.before.connection.queues.get? queue = some [] := by
  cases effect with
  | idle | other => exact .inl declared
  | declare _ empty =>
    rw [List.getElem?_append] at declared
    split at declared
    · exact .inl declared
    next beyond =>
      simp only [List.getElem?_singleton] at declared
      split at declared
      next zero =>
        cases declared
        exact .inr ⟨Nat.le_antisymm (Nat.sub_eq_zero_iff_le.1 zero) (Nat.le_of_not_lt beyond), empty⟩
      · cases declared
  | read | cancel | cancelEarly | abandon => exact .inl (declared_of_set declared rfl)
  | wait => exact .inl (declared_of_set declared (Waiter.isDeclared_start ..))
  | proceed => exact .inl (declared_of_set declared (Waiter.isDeclared_proceed ..))
  | notify =>
    left
    rw [List.getElem?_map, Option.map_eq_some_iff] at declared
    obtain ⟨⟨queue', stage⟩, found, same⟩ := declared
    simp only [Reader.mk.injEq] at same
    obtain ⟨rfl, told⟩ := same
    have before : stage.isDeclared = true := by
      rw [← Stage.isDeclared_tell, told]
      rfl
    rw [Stage.isDeclared_iff.1 before] at found
    exact found

/-- As long as there is an intention to read, no queue gets an event. -/
theorem pending (effect : t.Effect) (accounted : t.before.Accounted)
    (some : 0 < t.after.unconsumed) (empty : t.before.connection.queues.pending queue = 0) :
    t.after.connection.queues.pending queue = 0 := by
  have after := effect.accounted accounted
  cases effect with
  | read found last round =>
    rw [← after] at some
    have none := Connection.gate_of_round last round
    simp [none] at some
  | @other s action apart => exact (s.connection.step_effect action).pending_of_apart apart empty
  | _ => exact empty

end Turn.Effect

namespace Shared

variable {s : Shared δ} {i : Nat} {queue : QueueId}

/-- The queue of everybody who has declared the intention to read is empty. -/
def Quiet (s : Shared δ) : Prop :=
  ∀ (i : Nat) (queue : QueueId), s.readers[i]? = some ⟨queue, .declared⟩ →
    s.connection.queues.pending queue = 0

theorem Quiet.turn {t : Turn δ} (quiet : t.before.Quiet) (effect : t.Effect)
    (accounted : t.before.Accounted) : t.after.Quiet := by
  intro i queue declared
  refine effect.pending accounted (unconsumed_pos declared) ?_
  obtain old | ⟨_, empty⟩ := effect.declared_cases declared
  · exact quiet i queue old
  · simp [EventQueues.pending, empty]

theorem run_accounted (accounted : s.Accounted) (moves : List (Move δ)) :
    (s.run moves).Accounted :=
  run_invariant (fun _ effect accounted _ => effect.accounted accounted) moves accounted accounted

theorem run_quiet (accounted : s.Accounted) (quiet : s.Quiet) (moves : List (Move δ)) :
    (s.run moves).Quiet :=
  run_invariant (fun _ effect accounted quiet => quiet.turn effect accounted) moves accounted quiet

theorem declared_of_run (accounted : s.Accounted) {moves : List (Move δ)}
    (declared : (s.run moves).readers[i]? = some ⟨queue, .declared⟩)
    (old : i < s.readers.length) : s.readers[i]? = some ⟨queue, .declared⟩ := by
  induction moves generalizing s with
  | nil => exact declared
  | cons move moves ih =>
    have effect := turn_effect accounted move
    have after := ih (effect.accounted accounted) declared
      (Nat.lt_of_lt_of_le old effect.length_readers)
    obtain before | ⟨new, _⟩ := effect.declared_cases after
    · exact before
    · exact absurd new (Nat.ne_of_lt old)

/-- While a reader has the intention to read, nobody asks the socket and nothing arrives on the
    reader's queue. -/
theorem trace_quiet (accounted : s.Accounted) (quiet : s.Quiet) {moves : List (Move δ)}
    (old : i < s.readers.length)
    (declared : (s.run moves).readers[i]? = some ⟨queue, .declared⟩) :
    ∀ t ∈ s.trace moves, t.attempts = 0 ∧ t.after.connection.queues.pending queue = 0 := by
  induction moves generalizing s with
  | nil => simp [trace]
  | cons move moves ih =>
    have effect := turn_effect accounted move
    have older := Nat.lt_of_lt_of_le old effect.length_readers
    have after := effect.accounted accounted
    have still := declared_of_run after declared older
    have quiet' := quiet.turn effect accounted
    intro t mem
    cases mem with
    | head =>
      refine ⟨?_, quiet' i queue still⟩
      -- A turn that reads leaves no intention behind.
      refine Nat.eq_zero_of_not_pos fun asked => ?_
      have none := effect.unconsumed_of_attempts accounted asked
      have some := unconsumed_pos still
      omega
    | tail _ later => exact ih after quiet' older declared t later

/-- In whatever order threads and tasks declare, read, cancel, give up and do other things: the
    gate counts the intentions that are not yet withdrawn, and nobody withdraws one that is not
    there.  The socket is read only in turns that leave no intention behind.  So from the moment a
    reader has declared its intention until it withdraws it, nothing is read and its queue stays
    empty. -/
theorem no_read_while_declared (protocol : Protocol) (moves : List (Move δ)) :
    let s := (initial protocol).run moves
    s.connection.gate.readers = s.unconsumed ∧
    (∀ t ∈ (initial protocol).trace moves,
      t.withdrawal ≠ some .unpaired ∧ (0 < t.attempts → t.after.unconsumed = 0)) ∧
    ∀ (past future : List (Move δ)) (i : Nat) (queue : QueueId), moves = past ++ future →
      ((initial protocol).run past).readers[i]? = some ⟨queue, .declared⟩ →
      s.readers[i]? = some ⟨queue, .declared⟩ →
        s.connection.queues.pending queue = 0 ∧
        ∀ t ∈ ((initial protocol).run past).trace future,
          t.attempts = 0 ∧ t.after.connection.queues.pending queue = 0 := by
  intro s
  have start : (initial protocol : Shared δ).Accounted := initial_accounted protocol
  have nobody : (initial protocol : Shared δ).Quiet := nofun
  refine ⟨run_accounted start moves, ?_, ?_⟩
  · exact trace_forall (fun _ effect accounted =>
      ⟨effect.not_unpaired, effect.unconsumed_of_attempts accounted⟩) moves start
  · rintro past future i queue rfl declared still
    have old := (List.getElem?_eq_some_iff.1 declared).1
    refine ⟨run_quiet start nobody _ i queue still, ?_⟩
    have same : s = ((initial protocol).run past).run future := run_append _ past future
    rw [same] at still
    exact trace_quiet (run_accounted start past) (run_quiet start nobody past) old still

/-- The first of two readers reads, is told to wait, looks once more and still waits: the second one
    finds its queue empty and may poll the socket. -/
theorem no_read_while_declared_second :
    let past : List (Move Unit) := [.declare QueueId.default, .declare QueueId.default]
    let future : List (Move Unit) :=
      [.read 0 .thread .wouldBlock [], .other .createQueue rfl, .proceed 0]
    let s := (initial ⟨[]⟩).run (past ++ future)
    s.connection.gate.readers = 1 ∧ s.unconsumed = 1 ∧
      s.connection.queues.pending QueueId.default = 0 ∧
      ∀ t ∈ ((initial ⟨[]⟩).run past).trace future, t.attempts = 0 := by
  intro past future s
  obtain ⟨counted, _, quiet⟩ := no_read_while_declared ⟨[]⟩ (past ++ future)
  obtain ⟨empty, turns⟩ := quiet past future 1 QueueId.default rfl rfl rfl
  have one : s.unconsumed = 1 := by decide +kernel
  exact ⟨counted.trans one, one, empty, fun t mem => (turns t mem).1⟩

end Shared

end Wayland.Client
