import Wayland.Proofs.Client.Readers

/-! # Rounds of reading

A round lasts from the end of the last one until nobody has the intention to read any more.  Its
number is the serial of the gate, and a reader that has to wait remembers it.

Two invariants keep readers from waiting for ever.  `Rounds` ties the numbers that readers wait for
to the number of rounds that are over: whoever waits for the end of the current round waits for
somebody.  `Attended` says that a reader sleeps only while its round goes on, or while a
notification is on its way.
-/

namespace Wayland.Client

variable {δ : Type}

/-! ## One turn -/

namespace Connection

variable {c : Connection δ} {serial : UInt64} {result : Except ClientError Unit}

theorem waitOver?_none : c.waitOver? serial = none ↔ c.gate.serial = serial ∧ c.closed = false := by
  simp [waitOver?]

theorem waitOver?_some (ended : c.waitOver? serial = some result) : result = c.check := by
  unfold waitOver? at ended
  split at ended
  · cases ended
  · cases ended
    rfl

end Connection

/-- The first attempt is always made. -/
theorem Inbox.used_gather_pos (inbox : Inbox) (first : ReadOutcome) (more : List ReadOutcome) :
    0 < (inbox.gather 0 0 (first :: more)).used := by
  obtain ⟨_, _, _, used⟩ := inbox.gather_eq 0 0 (first :: more)
  have empty : ¬ readBudget ≤ 0 := by decide
  rw [used, ReadOutcome.taken, if_neg empty]
  simp

theorem Connection.attempts_readRound (c : Connection δ) (first : ReadOutcome)
    (more : List ReadOutcome) :
    0 < (c.readRound (first :: more)).value.2.1 ↔ c.check = .ok () := by
  cases usable : c.check with
  | error cause => simp [readRound_of_error usable]
  | ok _ =>
    obtain ⟨_, d, _, _, value⟩ := readSocket_value c (first :: more)
    simp [readRound_of_ok usable, value, Inbox.used_gather_pos]

namespace Waiter

variable {c : Connection δ} {serial serial' : UInt64} {wait wait' : Wait} {kind kind' : Waiter}
  {answer : Answer}

theorem look_waiting (waiting : kind.look c serial wait = .waiting kind' serial' wait') :
    kind' = kind ∧ serial' = serial ∧ wait' = wait ∧ c.waitOver? serial = none := by
  unfold look at waiting
  split at waiting
  · cases waiting
  next goesOn =>
    cases waiting
    exact ⟨rfl, rfl, rfl, goesOn⟩

theorem look_returned (returned : kind.look c serial wait = .returned answer) :
    answer = kind.waited c.check := by
  unfold look at returned
  split at returned
  next ended =>
    cases returned
    rw [Connection.waitOver?_some ended]
  · cases returned

/-- Nobody falls asleep whose round is over. -/
theorem start_waiting (waiting : kind.start c serial = .waiting kind' serial' wait') :
    kind' = kind ∧ serial' = serial ∧ (wait' = .asleep false → c.waitOver? serial = none) := by
  cases kind with
  | thread =>
    obtain ⟨rfl, rfl, _, goesOn⟩ := look_waiting waiting
    exact ⟨rfl, rfl, fun _ => goesOn⟩
  | task =>
    cases waiting
    exact ⟨rfl, rfl, nofun⟩

theorem start_returned (returned : kind.start c serial = .returned answer) :
    answer = kind.waited c.check := by
  cases kind with
  | thread => exact look_returned returned
  | task => cases returned

theorem proceed_waiting (waiting : kind.proceed c serial wait = .waiting kind' serial' wait') :
    kind' = kind ∧ serial' = serial ∧
      (wait' = .asleep false → c.waitOver? serial = none ∨ wait = .asleep false) := by
  unfold proceed at waiting
  split at waiting
  · obtain ⟨rfl, rfl, _, goesOn⟩ := look_waiting waiting
    exact ⟨rfl, rfl, fun _ => .inl goesOn⟩
  · cases waiting
    exact ⟨rfl, rfl, nofun⟩
  · obtain ⟨rfl, rfl, _, goesOn⟩ := look_waiting waiting
    exact ⟨rfl, rfl, fun _ => .inl goesOn⟩
  · cases waiting
    exact ⟨rfl, rfl, nofun⟩
  · cases waiting
    exact ⟨rfl, rfl, fun _ => .inr rfl⟩

theorem proceed_returned (returned : kind.proceed c serial wait = .returned answer) :
    answer = kind.waited c.check := by
  unfold proceed at returned
  split at returned
  · exact look_returned returned
  · cases returned
  · exact look_returned returned
  · cases returned
  · cases returned

end Waiter

theorem Stage.tell_waiting {stage : Stage} {kind kind' : Waiter} {serial : UInt64} {wait : Wait}
    (waiting : stage.tell kind = .waiting kind' serial wait) :
    ∃ wait', stage = .waiting kind' serial wait' ∧
      (wait = .asleep false → kind' ≠ kind ∧ wait' = .asleep false) := by
  cases stage with
  | waiting other serial' wait' =>
    by_cases same : other = kind
    · subst same
      cases wait' <;> simp [tell] at waiting <;> obtain ⟨rfl, rfl, rfl⟩ := waiting <;> simp
    · simp only [tell, same, if_false, Stage.waiting.injEq] at waiting
      obtain ⟨rfl, rfl, rfl⟩ := waiting
      exact ⟨wait', rfl, fun asleep => ⟨same, asleep⟩⟩
  | _ => cases waiting

namespace Turn.Effect

variable {t : Turn δ} {i : Nat} {queue : QueueId} {kind : Waiter} {serial : UInt64} {wait : Wait}

theorem wait_serial (effect : t.Effect) (waits : t.withdrawal = some (.wait serial)) :
    serial = t.before.connection.gate.serial := by
  cases effect with
  | wait _ others | cancelEarly _ others =>
    cases waits
    exact (ReadGate.withdraw_wait others).2.1
  | _ => cases waits

/-- The serial advances with the last withdrawal of a round, and only then. -/
theorem serial_after (effect : t.Effect) :
    t.after.connection.gate.serial =
      t.before.connection.gate.serial + if t.withdrawal = some .last then 1 else 0 := by
  cases effect with
  | read _ last round => exact congrArg ReadGate.serial (Connection.gate_of_round last round)
  | cancel _ last =>
    obtain ⟨_, rfl⟩ := ReadGate.withdraw_last last
    rfl
  | wait _ others | cancelEarly _ others =>
    obtain ⟨_, _, rfl⟩ := ReadGate.withdraw_wait others
    exact (UInt64.add_zero _).symm
  | @other s action apart =>
    have gate := (s.connection.step_effect action).gate_of_apart apart
    exact (congrArg ReadGate.serial gate).trans (UInt64.add_zero _).symm
  | _ => exact (UInt64.add_zero _).symm

/-- A reader that has to wait leaves another one behind. -/
theorem readers_pos (effect : t.Effect) (goesOn : t.withdrawal ≠ some .last)
    (others : 0 < t.before.connection.gate.readers ∨
      ∃ serial, t.withdrawal = some (.wait serial)) :
    0 < t.after.connection.gate.readers := by
  cases effect with
  | read | cancel => exact absurd rfl goesOn
  | declare => exact Nat.succ_pos _
  | wait _ withdrawn | cancelEarly _ withdrawn =>
    obtain ⟨two, _, rfl⟩ := ReadGate.withdraw_wait withdrawn
    exact Nat.sub_pos_of_lt two
  | @other s action apart =>
    have gate := (s.connection.step_effect action).gate_of_apart apart
    have same : (s.connection.step action).after.gate.readers = s.connection.gate.readers :=
      congrArg ReadGate.readers gate
    simpa [same] using others
  | _ => simpa using others

theorem last_iff (effect : t.Effect) (accounted : t.before.Accounted) :
    t.withdrawal = some .last ↔ 0 < t.before.unconsumed ∧ t.after.unconsumed = 0 := by
  have after := effect.accounted accounted
  unfold Shared.Accounted at accounted after
  rw [← accounted, ← after]
  constructor
  · intro ends
    cases effect with
    | read _ last round =>
      have none := Connection.gate_of_round last round
      exact ⟨by simp [(ReadGate.withdraw_last last).1], congrArg ReadGate.readers none⟩
    | cancel _ last =>
      obtain ⟨one, rfl⟩ := ReadGate.withdraw_last last
      exact ⟨by simp [one], rfl⟩
    | _ => cases ends
  · rintro ⟨before, none⟩
    by_cases ends : t.withdrawal = some .last
    · exact ends
    · have left := effect.readers_pos ends (.inl before)
      omega

theorem attempts_pos_iff (effect : t.Effect) :
    0 < t.attempts ↔ (∃ i kind first more, t.move = .read i kind first more) ∧
      t.withdrawal = some .last ∧ t.before.connection.check = .ok () := by
  cases effect with
  | @read s i kind first more _ gate _ attempts c _ _ round =>
    have asked := Connection.attempts_readRound { s.connection with gate } first more
    rw [round] at asked
    refine asked.trans ⟨fun usable => ⟨⟨i, kind, first, more, rfl⟩, rfl, usable⟩, ?_⟩
    exact fun ⟨_, _, usable⟩ => usable
  | cancel =>
    refine ⟨nofun, ?_⟩
    rintro ⟨⟨_, _, _, _, move⟩, _⟩
    cases move
  | _ => exact ⟨nofun, fun ⟨_, ends, _⟩ => nomatch ends⟩

/-- Whoever waits has waited before, or begins to. -/
theorem waiting_cases (effect : t.Effect) {r : Reader} (mem : r ∈ t.after.readers)
    (waiting : r.stage = .waiting kind serial wait) :
    (∃ r' ∈ t.before.readers, ∃ wait', r'.stage = .waiting kind serial wait') ∨
      t.withdrawal = some (.wait serial) := by
  -- Those who do not move.
  have rest {r : Reader} (mem : r ∈ t.before.readers)
      (waiting : r.stage = .waiting kind serial wait) :
      (∃ r' ∈ t.before.readers, ∃ wait', r'.stage = .waiting kind serial wait') ∨
        t.withdrawal = some (.wait serial) := .inl ⟨r, mem, wait, waiting⟩
  cases effect with
  | idle | other => exact rest mem waiting
  | declare =>
    obtain old | new := List.mem_append.1 mem
    · exact rest old waiting
    · obtain rfl := List.mem_singleton.1 new
      cases waiting
  | read | cancel | cancelEarly | abandon =>
    obtain old | rfl := List.mem_or_eq_of_mem_set mem
    · exact rest old waiting
    · cases waiting
  | wait =>
    obtain old | rfl := List.mem_or_eq_of_mem_set mem
    · exact rest old waiting
    · obtain ⟨_, rfl, _⟩ := Waiter.start_waiting waiting
      exact .inr rfl
  | proceed found =>
    obtain old | rfl := List.mem_or_eq_of_mem_set mem
    · exact rest old waiting
    · obtain ⟨rfl, rfl, _⟩ := Waiter.proceed_waiting waiting
      exact .inl ⟨_, List.mem_of_getElem? found, _, rfl⟩
  | notify =>
    obtain ⟨r', mem', rfl⟩ := List.mem_map.1 mem
    obtain ⟨wait', waiting', _⟩ := Stage.tell_waiting waiting
    exact .inl ⟨r', mem', wait', waiting'⟩

end Turn.Effect

/-- A reader has to wait, or has waited so far. -/
def Turn.Waits (t : Turn δ) (i : Nat) (kind : Waiter) : Prop :=
  (∃ queue serial wait, t.before.readers[i]? = some ⟨queue, .waiting kind serial wait⟩) ∨
  ∃ first more serial, t.move = .read i kind first more ∧ t.withdrawal = some (.wait serial)

theorem getElem?_set_of_ne {readers : List Reader} {i j : Nat} {r r' new : Reader}
    (found : readers[i]? = some r) (other : readers[j]? = some r') (differs : r ≠ r') :
    (readers.set j new)[i]? = some r := by
  rw [List.getElem?_set, if_neg, found]
  rintro rfl
  rw [found] at other
  cases other
  exact differs rfl

/-- A reader that waits gets no byte count. -/
theorem Turn.Effect.answer_of_waits {t : Turn δ} {i : Nat} {queue : QueueId} {kind : Waiter}
    {answer : Answer} (effect : t.Effect) (waits : t.Waits i kind)
    (returned : t.after.readers[i]? = some ⟨queue, .returned answer⟩) :
    answer = kind.waited t.after.connection.check := by
  obtain ⟨queue', serial, wait, found⟩ | ⟨first, more, serial, move, withdrawal⟩ := waits
  · -- Only its own move lets a waiting reader return.
    have unmoved {P : Prop} (same : t.after.readers[i]? = t.before.readers[i]?) : P := by
      rw [same, found] at returned
      cases returned
    cases effect with
    | idle | other => exact unmoved rfl
    | declare =>
      have old := (List.getElem?_eq_some_iff.1 found).1
      exact unmoved (List.getElem?_append_left old)
    | read other | wait other | cancel other | cancelEarly other =>
      exact unmoved ((getElem?_set_of_ne found other (by simp)).trans found.symm)
    | abandon other =>
      rw [List.getElem?_set] at returned
      split at returned
      · split at returned <;> cases returned
      · rw [found] at returned
        cases returned
    | proceed other =>
      rw [List.getElem?_set] at returned
      split at returned
      next same =>
        subst same
        rw [found] at other
        cases other
        split at returned
        · simp only [Option.some.injEq, Reader.mk.injEq] at returned
          exact Waiter.proceed_returned returned.2
        · cases returned
      · rw [found] at returned
        cases returned
    | notify =>
      rw [List.getElem?_map, found] at returned
      simp only [Option.map_some, Option.some.injEq, Reader.mk.injEq, Stage.tell] at returned
      obtain ⟨_, told⟩ := returned
      split at told
      · split at told <;> cases told
      · cases told
  · cases effect with
    | wait found =>
      cases move
      cases withdrawal
      have inside := (List.getElem?_eq_some_iff.1 found).1
      rw [List.getElem?_set_self inside] at returned
      simp only [Option.some.injEq, Reader.mk.injEq] at returned
      exact Waiter.start_returned returned.2
    | cancelEarly => cases move
    | _ => cases withdrawal

/-- Both turns ask the socket in the same round. -/
def Turn.SameRound (t u : Turn δ) : Prop :=
  0 < t.attempts ∧ 0 < u.attempts ∧
    t.before.connection.gate.serial = u.before.connection.gate.serial

/-! ## Nobody waits for nothing -/

/-- How many rounds have ended. -/
def rounds (turns : List (Turn δ)) : Nat := turns.countP (·.withdrawal = some .last)

theorem rounds_append (past : List (Turn δ)) (t : Turn δ) :
    rounds (past ++ [t]) = rounds past + if t.withdrawal = some .last then 1 else 0 := by
  simp [rounds, List.countP_singleton]

/-- The numbers of rounds, seen from the turns that led to a state. -/
structure Rounds (past : List (Turn δ)) (s : Shared δ) : Prop where
  serial : s.connection.gate.serial = UInt64.ofNat (rounds past)
  /-- Who waits for the current round waits for somebody. -/
  waiting : ∀ r ∈ s.readers, ∀ kind serial wait, r.stage = .waiting kind serial wait →
    ∃ n ≤ rounds past, serial = UInt64.ofNat n ∧
      (n = rounds past → 0 < s.connection.gate.readers)
  /-- A turn that reads ends its round. -/
  reads : ∀ t ∈ past, 0 < t.attempts →
    ∃ n < rounds past, t.before.connection.gate.serial = UInt64.ofNat n

theorem Rounds.turn {past : List (Turn δ)} {t : Turn δ} (holds : Rounds past t.before)
    (effect : t.Effect) : Rounds (past ++ [t]) t.after where
  serial := by
    rw [effect.serial_after, rounds_append, holds.serial, UInt64.ofNat_add]
    split <;> rfl
  waiting := by
    intro r mem kind serial wait waiting
    rw [rounds_append]
    by_cases ends : t.withdrawal = some .last
    · -- All numbers that are waited for belong to rounds that are over.
      obtain ⟨r', mem', wait', waiting'⟩ | withdrawn := effect.waiting_cases mem waiting
      · obtain ⟨n, le, same, _⟩ := holds.waiting r' mem' kind serial wait' waiting'
        rw [if_pos ends]
        exact ⟨n, by omega, same, by omega⟩
      · rw [ends] at withdrawn
        cases withdrawn
    · rw [if_neg ends, Nat.add_zero]
      obtain ⟨r', mem', wait', waiting'⟩ | withdrawn := effect.waiting_cases mem waiting
      · obtain ⟨n, le, same, current⟩ := holds.waiting r' mem' kind serial wait' waiting'
        exact ⟨n, le, same, fun now => effect.readers_pos ends (.inl (current now))⟩
      · refine ⟨rounds past, Nat.le_refl _, ?_, fun _ => ?_⟩
        · rw [effect.wait_serial withdrawn, holds.serial]
        · exact effect.readers_pos ends (.inr ⟨serial, withdrawn⟩)
  reads := by
    intro u mem asked
    rw [rounds_append]
    obtain old | new := List.mem_append.1 mem
    · obtain ⟨n, lt, same⟩ := holds.reads u old asked
      exact ⟨n, by omega, same⟩
    · obtain rfl := List.mem_singleton.1 new
      obtain ⟨_, ends, _⟩ := effect.attempts_pos_iff.1 asked
      exact ⟨rounds past, by rw [if_pos ends]; omega, holds.serial⟩

theorem ofNat_ne_of_lt {m n : Nat} (lt : m < n) (small : n < UInt64.size) :
    UInt64.ofNat m ≠ UInt64.ofNat n := by
  intro same
  have equal := congrArg UInt64.toNat same
  rw [UInt64.toNat_ofNat_of_lt' (Nat.lt_trans lt small), UInt64.toNat_ofNat_of_lt' small] at equal
  omega

/-- Two turns that read belong to different rounds. -/
theorem Rounds.distinct {past : List (Turn δ)} {t u : Turn δ} (holds : Rounds past t.before)
    (few : rounds past < UInt64.size) (mem : u ∈ past) : ¬ u.SameRound t := by
  rintro ⟨asked, _, same⟩
  obtain ⟨n, lt, number⟩ := holds.reads u mem asked
  rw [number, holds.serial] at same
  exact ofNat_ne_of_lt lt few same

/-! ## Nobody oversleeps -/

/-- Who sleeps and was not told sleeps while the round goes on, or will be told. -/
def Shared.Attended (s : Shared δ) : Prop :=
  ∀ r ∈ s.readers, ∀ kind serial, r.stage = .waiting kind serial (.asleep false) →
    s.connection.waitOver? serial = none ∨ 0 < s.owed kind

theorem Shared.Attended.turn {t : Turn δ} (attended : t.before.Attended) (effect : t.Effect) :
    t.after.Attended := by
  intro r mem kind serial asleep
  cases effect with
  | idle => exact attended r mem kind serial asleep
  | declare =>
    obtain old | new := List.mem_append.1 mem
    · exact attended r old kind serial asleep
    · obtain rfl := List.mem_singleton.1 new
      cases asleep
  | read | cancel => exact .inr (Nat.succ_pos _)
  | wait _ others =>
    obtain ⟨_, _, rfl⟩ := ReadGate.withdraw_wait others
    obtain old | rfl := List.mem_or_eq_of_mem_set mem
    · exact attended r old kind serial asleep
    · obtain ⟨_, rfl, goesOn⟩ := Waiter.start_waiting asleep
      exact .inl (goesOn rfl)
  | cancelEarly _ others =>
    obtain ⟨_, _, rfl⟩ := ReadGate.withdraw_wait others
    obtain old | rfl := List.mem_or_eq_of_mem_set mem
    · exact attended r old kind serial asleep
    · cases asleep
  | abandon =>
    obtain old | rfl := List.mem_or_eq_of_mem_set mem
    · exact attended r old kind serial asleep
    · cases asleep
  | proceed found =>
    obtain old | rfl := List.mem_or_eq_of_mem_set mem
    · exact attended r old kind serial asleep
    · obtain ⟨rfl, rfl, either⟩ := Waiter.proceed_waiting asleep
      obtain goesOn | rfl := either rfl
      · exact .inl goesOn
      · exact attended _ (List.mem_of_getElem? found) _ _ rfl
  | notify =>
    obtain ⟨r', mem', rfl⟩ := List.mem_map.1 mem
    obtain ⟨wait', waiting, untold⟩ := Stage.tell_waiting asleep
    -- The notification was meant for the others.
    obtain ⟨differs, rfl⟩ := untold rfl
    simpa [differs] using attended r' mem' kind serial waiting
  | @other s action apart =>
    by_cases closes : ((s.connection.step action).after.closed && !s.connection.closed) = true
    · right
      simp [closes, Shared.owe]
    · obtain goesOn | told := attended r mem kind serial asleep
      · left
        obtain ⟨current, isOpen⟩ := Connection.waitOver?_none.1 goesOn
        have gate := (s.connection.step_effect action).gate_of_apart apart
        refine Connection.waitOver?_none.2 ⟨(congrArg ReadGate.serial gate).trans current, ?_⟩
        have isOpen : s.connection.closed = false := isOpen
        simpa [isOpen] using closes
      · right
        simpa [closes] using told

/-- What a reader comes to by its own next move. -/
def Stage.next (c : Connection δ) : Stage → Stage
  | .waiting kind serial wait => kind.proceed c serial wait
  | stage => stage

namespace Shared

variable {s : Shared δ} {i : Nat} {queue : QueueId}

theorem proceed_next {stage : Stage} (found : s.readers[i]? = some ⟨queue, stage⟩) :
    (s.turn (.proceed i)).after.connection = s.connection ∧
      (s.turn (.proceed i)).after.readers[i]? = some ⟨queue, stage.next s.connection⟩ := by
  have inside := (List.getElem?_eq_some_iff.1 found).1
  cases stage with
  | waiting kind serial wait =>
    simp only [turn, make, found, true_and]
    exact List.getElem?_set_self inside
  | _ =>
    simp only [turn, make, found, true_and]
    rfl

/-- Who is awake, listens or has been told finds out in at most three moves that the wait is
    over. -/
theorem returned_of_waitOver {kind : Waiter} {serial : UInt64} {wait : Wait}
    {result : Except ClientError Unit}
    (found : s.readers[i]? = some ⟨queue, .waiting kind serial wait⟩)
    (stirred : wait ≠ .asleep false) (ended : s.connection.waitOver? serial = some result) :
    (s.run [.proceed i, .proceed i, .proceed i]).readers[i]? =
      some ⟨queue, .returned (kind.waited result)⟩ := by
  obtain ⟨kept₁, found₁⟩ := proceed_next found
  obtain ⟨kept₂, found₂⟩ := proceed_next found₁
  obtain ⟨_, found₃⟩ := proceed_next found₂
  rw [kept₂, kept₁] at found₃
  refine found₃.trans ?_
  cases kind with
  | thread => simp [Stage.next, Waiter.proceed, Waiter.look, ended]
  | task =>
    cases wait with
    | awake | listening => simp [Stage.next, Waiter.proceed, Waiter.look, ended]
    | asleep told =>
      cases told with
      | false => exact absurd rfl stirred
      | true => simp [Stage.next, Waiter.proceed, Waiter.look, ended]

theorem initial_rounds (protocol : Protocol) : Rounds [] (initial protocol : Shared δ) where
  serial := by simp [initial, Connection.initial, rounds]
  waiting := by simp [initial]
  reads := by simp

theorem run_attended (protocol : Protocol) (moves : List (Move δ)) :
    ((initial protocol).run moves : Shared δ).Attended :=
  run_invariant (fun _ effect _ attended => attended.turn effect) moves
    (initial_accounted protocol) (by simp [Attended, initial])

theorem trace_rounds (protocol : Protocol) (moves : List (Move δ)) :
    let turns := (initial protocol).trace moves
    Rounds turns ((initial protocol).run moves) ∧
      (rounds turns < UInt64.size → turns.Pairwise fun t u => ¬ t.SameRound u) := by
  refine @trace_invariant δ _ (fun past s => Rounds past s ∧
    (rounds past < UInt64.size → past.Pairwise fun t u => ¬ t.SameRound u)) ?_ moves []
    (initial_accounted protocol) ⟨initial_rounds protocol, fun _ => .nil⟩
  rintro past t effect _ ⟨holds, distinct⟩
  refine ⟨holds.turn effect, fun few => ?_⟩
  have fewer : rounds past < UInt64.size := by
    rw [rounds_append] at few
    omega
  refine List.pairwise_append.2 ⟨distinct fewer, List.pairwise_singleton .., ?_⟩
  intro u old _ new
  obtain rfl := List.mem_singleton.1 new
  exact holds.distinct fewer old

/-- Whatever readers do, as long as fewer rounds have ended than there are serials.

    Whoever waits for the end of the current round waits for somebody who has still the intention
    to read, and the turn in which the last one withdraws it advances the serial.  Whoever waits
    although the wait is over is about to be notified, or returns within three moves.

    The socket is asked in a turn exactly if the last reader of a round reads while the connection
    is in use, so never twice in one round and not at all if the last one cancels.  Those who have
    waited get nothing but word of how the connection is. -/
theorem one_read_per_round (protocol : Protocol) (moves : List (Move δ))
    (few : rounds ((initial protocol).trace moves) < UInt64.size) :
    let s := (initial protocol).run moves
    let turns := (initial protocol).trace moves
    (∀ (i : Nat) queue kind serial wait,
      s.readers[i]? = some ⟨queue, .waiting kind serial wait⟩ →
        (serial = s.connection.gate.serial → 1 ≤ s.connection.gate.readers) ∧
        ∀ result, s.connection.waitOver? serial = some result →
          wait = .asleep false ∧ 0 < s.owed kind ∨
          (s.run [.proceed i, .proceed i, .proceed i]).readers[i]? =
            some ⟨queue, .returned (kind.waited result)⟩) ∧
    (∀ t ∈ turns,
      (t.withdrawal = some .last ↔ 0 < t.before.unconsumed ∧ t.after.unconsumed = 0) ∧
      t.after.connection.gate.serial =
        t.before.connection.gate.serial + (if t.withdrawal = some .last then 1 else 0) ∧
      (0 < t.attempts ↔ (∃ i kind first more, t.move = .read i kind first more) ∧
        t.withdrawal = some .last ∧ t.before.connection.check = .ok ()) ∧
      ∀ (i : Nat) kind queue answer, t.Waits i kind →
        t.after.readers[i]? = some ⟨queue, .returned answer⟩ →
          answer = kind.waited t.after.connection.check) ∧
    turns.Pairwise fun t u => ¬ t.SameRound u := by
  intro s turns
  obtain ⟨holds, distinct⟩ := trace_rounds protocol moves
  refine ⟨?_, ?_, distinct few⟩
  · intro i queue kind serial wait found
    have mem := List.mem_of_getElem? found
    constructor
    · intro current
      obtain ⟨n, le, same, waitsFor⟩ := holds.waiting _ mem kind serial wait rfl
      rw [current, holds.serial] at same
      refine waitsFor ?_
      -- Serials of fewer rounds than there are serials are distinct.
      by_cases now : n = rounds turns
      · exact now
      · exact absurd same.symm (ofNat_ne_of_lt (Nat.lt_of_le_of_ne le now) few)
    · intro result ended
      by_cases asleep : wait = .asleep false
      · subst asleep
        obtain goesOn | owed := run_attended protocol moves _ mem kind serial rfl
        · rw [ended] at goesOn
          cases goesOn
        · exact .inl ⟨rfl, owed⟩
      · exact .inr (returned_of_waitOver found asleep ended)
  · exact trace_forall (fun _ effect accounted =>
      ⟨effect.last_iff accounted, effect.serial_after, effect.attempts_pos_iff,
        fun _ _ _ _ waits returned => effect.answer_of_waits waits returned⟩) moves
      (initial_accounted protocol)

/-- A task waits for a thread.  Once the thread has read, the task finds out that there is nothing
    for it to report. -/
theorem one_read_per_round_task :
    let early : List (Move Unit) :=
      [.declare QueueId.default, .declare QueueId.default, .read 0 .task .wouldBlock []]
    let moves := early ++ [.read 1 .thread .wouldBlock []]
    let s := (initial ⟨[]⟩).run moves
    1 ≤ ((initial ⟨[]⟩).run early).connection.gate.readers ∧
      rounds ((initial ⟨[]⟩).trace moves) = 1 ∧
      (s.run [.proceed 0, .proceed 0, .proceed 0]).readers[0]? =
        some ⟨QueueId.default, .returned (.share (.ok none))⟩ := by
  intro early moves s
  have one : rounds ((initial ⟨[]⟩).trace moves) = 1 := by decide +kernel
  obtain ⟨before, _⟩ := one_read_per_round ⟨[]⟩ early (by decide +kernel)
  obtain ⟨after, _⟩ := one_read_per_round ⟨[]⟩ moves (by rw [one]; decide)
  refine ⟨(before 0 QueueId.default .task 0 .awake rfl).1 rfl, one, ?_⟩
  obtain ⟨asleep, _⟩ | returned := (after 0 QueueId.default .task 0 .awake rfl).2 (.ok ()) rfl
  · cases asleep
  · exact returned

end Shared

end Wayland.Client
