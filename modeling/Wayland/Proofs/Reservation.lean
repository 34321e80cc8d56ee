import Wayland.Proofs.Allocation

/-! # Reserved numbers

A pool may start at a number above the least one; those below it are reserved for somebody else.
The pool does not remember where it started.  A reserved number looks like one that was handed
out, and whoever gives it back makes it free.

* `startingAt_taken`: a number is taken if it is out, or reserved and never given back.
* `exists_handed`: a free number is handed out in the end if nothing but handing out goes on.
* `reserved_until_returned`: reserved numbers stay reserved exactly as long as nobody gives one of
  them back.
-/

namespace Wayland.IdPool

variable {first id : ObjectId} {p q : IdPool} {calls : List Call}

/-! ## What is taken -/

/-- The call gives back a number of the client's range below `first`. -/
def Call.Trespasses (first : ObjectId) (call : Call) : Prop :=
  ∃ id, call = .recycle id ∧ ObjectId.isClient id = true ∧ id < first

theorem Ordered.answer (ordered : p.Ordered first) {call : Call}
    (respects : ¬ call.Trespasses first) : (p.answer call).2.Ordered first := by
  cases call with
  | alloc =>
    cases handed : p.alloc with
    | error cause =>
      rw [answer_of_error handed]
      exact ordered
    | ok result =>
      rw [answer_of_ok handed]
      exact (ordered.alloc_ok handed).2.2.1
  | recycle id =>
    by_cases client : ObjectId.isClient id = true
    · have low : first ≤ id := UInt32.not_lt.1 fun below => respects ⟨id, rfl, client, below⟩
      exact (ordered.recycle low).1
    · rw [IdPool.answer, recycle_foreign (by simpa using client)]
      exact ordered

theorem Ordered.after (ordered : p.Ordered first)
    (respects : ∀ call ∈ calls, ¬ call.Trespasses first) : (p.after calls).Ordered first := by
  induction calls using List.reverseRecOn with
  | nil => exact ordered
  | append_singleton calls call ih =>
    rw [after_concat]
    exact (ih fun call earlier => respects call (List.mem_append_left _ earlier)).answer
      (respects call (by simp))

/-- A number of the client's range below `first` that no call has given back. -/
def IsReserved (first : ObjectId) (calls : List Call) (id : ObjectId) : Prop :=
  ObjectId.isClient id = true ∧ id < first ∧ .recycle id ∉ calls

/-- Below the least number there is nothing to give back. -/
theorem not_trespasses_least (call : Call) : ¬ call.Trespasses ObjectId.clientMin := by
  rintro ⟨id, _, client, below⟩
  exact UInt32.not_lt.2 (isClient_iff.1 client).1 below

theorem Ordered.after_any (ordered : p.Ordered ObjectId.clientMin) (calls : List Call) :
    (p.after calls).Ordered ObjectId.clientMin :=
  ordered.after fun call _ => not_trespasses_least call

/-- A number is taken if it was handed out and has not come back since, or if it is reserved and
    has never been given back. -/
theorem startingAt_taken (least : ObjectId.clientMin ≤ first) (calls : List Call)
    (client : ObjectId.isClient id = true) :
    ((startingAt first).after calls).Taken id ↔
      id ∈ (startingAt first).used calls ∨ IsReserved first calls id := by
  unfold IsReserved
  induction calls using List.reverseRecOn with
  | nil => simp [Taken, after, history, startingAt, used, events, outstanding, client]
  | append_singleton calls call ih =>
    have ordered := (startingAt_ordered least).after_any calls
    rw [after_concat, used_concat, mem_update]
    cases call with
    | alloc =>
      cases handed : ((startingAt first).after calls).alloc with
      | error cause =>
        rw [answer_of_error handed, ih]
        simp
      | ok result =>
        rw [answer_of_ok handed, (ordered.alloc_ok handed).2.2.2, ih]
        simp only [Event.handed.injEq, List.mem_append, List.mem_singleton, reduceCtorEq, or_false,
          ne_eq, not_false_eq_true, and_true, @eq_comm _ result.1 id]
        exact or_right_comm.trans (or_congr_left or_comm)
    | recycle other =>
      by_cases own : ObjectId.isClient other = true
      · have low := (isClient_iff.1 own).1
        simp only [answer, ordered.taken_recycle low own, ih, List.mem_append,
          List.mem_singleton, Call.recycle.injEq, Event.returned.injEq, reduceCtorEq, false_or,
          not_or, @eq_comm _ other id, or_and_right, and_assoc, ne_eq]
      · have differs : other ≠ id := fun same => own (same ▸ client)
        simp [answer, recycle_foreign (by simpa using own), ih, differs, differs.symm]

/-! ## What is handed out -/

/-- As long as a number of the client's range is free, there is one to hand out. -/
theorem exists_alloc (client : ObjectId.isClient id = true) (free : ¬ p.Taken id) :
    ∃ x q, p.alloc = .ok (x, q) := by
  cases handed : p.alloc with
  | ok result => exact ⟨result.1, result.2, rfl⟩
  | error cause =>
    obtain ⟨none, full⟩ := alloc_error handed
    refine absurd ⟨UInt32.lt_of_le_of_lt (isClient_iff.1 client).2 full, ?_⟩ free
    simp [none]

theorem history_cons (p : IdPool) (call : Call) (calls : List Call) :
    p.events (call :: calls) = (p.answer call).1 :: (p.answer call).2.events calls ∧
      p.after (call :: calls) = (p.answer call).2.after calls := by
  induction calls using List.reverseRecOn with
  | nil => exact ⟨rfl, rfl⟩
  | append_singleton calls last ih =>
    rw [← List.cons_append, events_concat, after_concat, events_concat, after_concat, ih.1, ih.2]
    exact ⟨rfl, rfl⟩

theorem handed_at_once (handed : p.alloc = .ok (id, q)) :
    .handed id ∈ p.events (List.replicate 1 .alloc) := by
  rw [List.replicate_one, (history_cons p .alloc []).1, answer_of_ok handed]
  exact List.mem_cons_self

/-- A free number is handed out in the end if nothing but handing out goes on. -/
theorem exists_handed (ordered : p.Ordered ObjectId.clientMin)
    (client : ObjectId.isClient id = true) (free : ¬ p.Taken id) :
    ∃ count, .handed id ∈ p.events (List.replicate count .alloc) := by
  -- Numbers come in ascending order, so that the free ones below this one run out; `gap` counts
  -- the numbers from the first that may still be free.
  suffices runs : ∀ gap (p : IdPool), p.Ordered ObjectId.clientMin → ¬ p.Taken id →
      (∀ x, ObjectId.clientMin ≤ x → x.toNat + gap < id.toNat → p.Taken x) →
      ∃ count, .handed id ∈ p.events (List.replicate count .alloc) from
    runs id.toNat p ordered free fun x _ below => absurd below (by omega)
  intro gap
  induction gap with
  | zero =>
    intro p ordered free below
    obtain ⟨x, q, handed⟩ := exists_alloc client free
    obtain ⟨low, unused, _⟩ := ordered.alloc_ok handed
    have under := UInt32.le_iff_toNat_le.1 (ordered.alloc_le handed free)
    have above : ¬ x.toNat < id.toNat := fun less => unused (below x low less)
    obtain rfl : x = id := UInt32.toNat_inj.1 (by omega)
    exact ⟨1, handed_at_once handed⟩
  | succ gap ih =>
    intro p ordered free below
    obtain ⟨x, q, handed⟩ := exists_alloc client free
    obtain ⟨low, unused, later, taken⟩ := ordered.alloc_ok handed
    by_cases same : x = id
    · exact ⟨1, handed_at_once (same ▸ handed)⟩
    · have stillFree : ¬ q.Taken id := fun gone =>
        ((taken id).1 gone).elim free fun equal => same equal.symm
      obtain ⟨count, member⟩ := ih q later stillFree fun y least less => by
        refine (taken y).2 (or_iff_not_imp_left.2 fun unusedY => ?_)
        -- The least free number has just gone, so it is this one.
        have under := UInt32.le_iff_toNat_le.1 (ordered.alloc_le handed unusedY)
        have above : ¬ x.toNat + (gap + 1) < id.toNat := fun less => unused (below x low less)
        exact UInt32.toNat_inj.1 (by omega)
      refine ⟨count + 1, ?_⟩
      rw [List.replicate_succ, (history_cons p .alloc _).1, answer_of_ok handed]
      exact List.mem_cons_of_mem _ member

/-- Handing out never gives a number that is taken. -/
theorem not_handed (ordered : p.Ordered first) (taken : p.Taken id) (count : Nat) :
    .handed id ∉ p.events (List.replicate count .alloc) := by
  induction count generalizing p with
  | zero => exact List.not_mem_nil
  | succ count ih =>
    rw [List.replicate_succ, (history_cons p .alloc _).1, List.mem_cons, not_or]
    cases handed : p.alloc with
    | error cause =>
      rw [answer_of_error handed]
      exact ⟨by simp, ih ordered taken⟩
    | ok result =>
      obtain ⟨_, unused, later, still⟩ := ordered.alloc_ok handed
      rw [answer_of_ok handed]
      refine ⟨?_, ih later ((still id).2 (.inl taken))⟩
      rintro ⟨⟩
      exact unused taken

/-- It can be told from what happens later that a number was taken back. -/
theorem exists_events_ne (ordered : p.Ordered ObjectId.clientMin)
    (client : ObjectId.isClient id = true) (taken : p.Taken id) :
    ∃ later, (p.recycle id).events later ≠ p.events later := by
  have low := (isClient_iff.1 client).1
  have free : ¬ (p.recycle id).Taken id := fun still =>
    ((ordered.taken_recycle low client id).1 still).2 rfl
  obtain ⟨count, member⟩ := exists_handed (ordered.recycle low).1 client free
  exact ⟨_, fun same => not_handed ordered taken count (same ▸ member)⟩

/-! ## Where a pool starts -/

/-- A pool that starts at `first`, after any calls with any numbers.  All numbers that it has
    offered or could have handed out on the way lie from `first` on, exactly if no call has given
    back a number of the client's range below `first`.  To give back a number that is not out
    changes nothing, unless the number is one of the client's range below `first` that has not
    been given back before; then what the pool does later can tell. -/
theorem reserved_until_returned (least : ObjectId.clientMin ≤ first) (calls : List Call) :
    let start := startingAt first
    let p := start.after calls
    ((∀ past, past <+: calls →
        (∀ id q, (start.after past).alloc = .ok (id, q) → first ≤ id) ∧
        ∀ id, (start.after past).peek = .ok id → first ≤ id) ↔
      ∀ id, .recycle id ∈ calls → ObjectId.isClient id = true → first ≤ id) ∧
    ∀ id, id ∉ start.used calls →
      (¬ IsReserved first calls id → p.recycle id = p) ∧
      (IsReserved first calls id → ∃ later, (p.recycle id).events later ≠ p.events later) := by
  intro start p
  have ordered (past : List Call) : (start.after past).Ordered ObjectId.clientMin :=
    (startingAt_ordered least).after_any past
  refine ⟨⟨?_, ?_⟩, ?_⟩
  · intro kept id returned client
    -- Right after it has come back, this number or one below it can be handed out.
    obtain ⟨before, after, rfl⟩ := List.append_of_mem returned
    have low := (isClient_iff.1 client).1
    have free : ¬ (start.after (before ++ [.recycle id])).Taken id := by
      rw [after_concat]
      exact fun still => (((ordered before).taken_recycle low client id).1 still).2 rfl
    obtain ⟨x, q, handed⟩ := exists_alloc client free
    have offered := (kept (before ++ [.recycle id]) ⟨after, by simp⟩).1 x q handed
    exact UInt32.le_trans offered ((ordered _).alloc_le handed free)
  · intro respects past early
    have strict : (start.after past).Ordered first := by
      refine (startingAt_ordered (UInt32.le_refl first)).after ?_
      rintro _ member ⟨id, rfl, client, below⟩
      exact UInt32.not_lt.2 (respects id (early.subset member) client) below
    have handsOut (id q) (handed : (start.after past).alloc = .ok (id, q)) : first ≤ id :=
      (strict.alloc_ok handed).1
    refine ⟨handsOut, fun id offered => ?_⟩
    rw [peek_eq_alloc] at offered
    cases handed : (start.after past).alloc with
    | error cause =>
      rw [handed] at offered
      cases offered
    | ok result =>
      rw [handed] at offered
      cases offered
      exact handsOut _ _ handed
  · intro id out
    constructor
    · intro unreserved
      by_cases client : ObjectId.isClient id = true
      · refine (ordered calls).recycle_of_not_taken fun taken => unreserved ?_
        exact ((startingAt_taken least calls client).1 taken).resolve_left out
      · exact recycle_foreign (by simpa using client)
    · intro reserved
      exact exists_events_ne (ordered calls) reserved.1
        ((startingAt_taken least calls reserved.1).2 (.inr reserved))

/-- Two numbers are reserved.  Once the second one has been given back it is handed out, although
    nobody got it from this pool.  To give it back again changes nothing; to give back the first
    one does. -/
theorem reserved_until_returned_lowered :
    let start := startingAt 3
    let calls : List Call := [.alloc, .recycle 2]
    let p := start.after calls
    ObjectId.clientMin ≤ (3 : ObjectId) ∧ start.used calls = {3} ∧ p.peek = .ok 2 ∧
      p.recycle 2 = p ∧ ∃ later, (p.recycle 1).events later ≠ p.events later := by
  intro start calls p
  have out : start.used calls = {3} := by decide +kernel
  have low : ObjectId.clientMin ≤ (3 : ObjectId) := by decide
  obtain ⟨_, returned⟩ := reserved_until_returned low calls
  refine ⟨low, out, rfl, ?_, ?_⟩
  · refine (returned 2 (by rw [out]; decide)).1 fun reserved => reserved.2.2 ?_
    simp [calls]
  · refine (returned 1 (by rw [out]; decide)).2 ⟨by decide, by decide, ?_⟩
    simp [calls]

end Wayland.IdPool
