import Mathlib.Data.Finset.Card
import Wayland.Proofs.IdPool

/-! # The least free number

A pool keeps a mark and a list, but what it does depends only on the set of numbers that are in
use.  `Represents` ties the two together: each call keeps it (`Represents.answer`), and a set has
only one pool that represents it (`Represents.unique`).  So a pool is the allocator that hands out
the least number not in use, and its history beyond that set leaves no trace.

Numbers are counted up and down in 32 bits.  `alloc?` and `recycle?` have no answer where that
would overflow; they always have one.
-/

namespace Wayland.IdPool

/-! ## Histories -/

/-- Something that is asked of a pool. -/
inductive Call
  | alloc
  | recycle (id : ObjectId)

/-- What came of a call. -/
inductive Event
  | handed (id : ObjectId)
  /-- There was no number left. -/
  | refused
  | returned (id : ObjectId)
  deriving DecidableEq

/-- Does what a call asks for.  A refusal leaves the pool as it is. -/
def answer (p : IdPool) : Call → Event × IdPool
  | .alloc =>
    match p.alloc with
    | .ok (id, p) => (.handed id, p)
    | .error _ => (.refused, p)
  | .recycle id => (.returned id, p.recycle id)

/-- What came of calls one after the other, and the pool after them. -/
def history (p : IdPool) (calls : List Call) : List Event × IdPool :=
  calls.foldl (fun (past, p) call => (past ++ [(p.answer call).1], (p.answer call).2)) ([], p)

def events (p : IdPool) (calls : List Call) : List Event := (p.history calls).1

def after (p : IdPool) (calls : List Call) : IdPool := (p.history calls).2

/-- The numbers in use after one more event. -/
def Event.update (used : Finset ObjectId) : Event → Finset ObjectId
  | .handed id => insert id used
  | .refused => used
  | .returned id => used.erase id

/-- The numbers that were handed out and have not come back since. -/
def outstanding (events : List Event) : Finset ObjectId := events.foldl Event.update ∅

/-- The numbers in use after some calls. -/
def used (p : IdPool) (calls : List Call) : Finset ObjectId := outstanding (p.events calls)

section

variable {p q : IdPool}

theorem answer_of_ok {id : ObjectId} (handed : p.alloc = .ok (id, q)) :
    p.answer .alloc = (.handed id, q) := by
  simp [answer, handed]

theorem answer_of_error {cause : Exhausted} (refused : p.alloc = .error cause) :
    p.answer .alloc = (.refused, p) := by
  simp [answer, refused]

end

section

variable (p : IdPool) (calls : List Call) (call : Call)

theorem events_concat :
    p.events (calls ++ [call]) = p.events calls ++ [((p.after calls).answer call).1] := by
  simp [events, after, history]

theorem after_concat : p.after (calls ++ [call]) = ((p.after calls).answer call).2 := by
  simp [after, history]

theorem outstanding_concat (past : List Event) (event : Event) :
    outstanding (past ++ [event]) = event.update (outstanding past) := by
  simp [outstanding]

theorem used_concat :
    p.used (calls ++ [call]) = ((p.after calls).answer call).1.update (p.used calls) := by
  rw [used, events_concat, outstanding_concat, used]

end

theorem mem_update {used : Finset ObjectId} {event : Event} {id : ObjectId} :
    id ∈ event.update used ↔ event = .handed id ∨ id ∈ used ∧ event ≠ .returned id := by
  cases event <;> simp [Event.update, @eq_comm _ id, and_comm]

theorem mem_outstanding {events : List Event} {id : ObjectId} :
    id ∈ outstanding events ↔
      ∃ past future, events = past ++ .handed id :: future ∧ .returned id ∉ future := by
  -- The last event decides, or nothing has happened to the number since.
  induction events using List.reverseRecOn with
  | nil => simp [outstanding]
  | append_singleton events event ih =>
    rw [outstanding_concat, mem_update, ih]
    constructor
    · rintro (rfl | ⟨⟨past, future, rfl, kept⟩, other⟩)
      · exact ⟨events, [], rfl, List.not_mem_nil⟩
      · refine ⟨past, future ++ [event], by simp, ?_⟩
        simpa [kept] using Ne.symm other
    · rintro ⟨past, future, split, kept⟩
      rcases List.eq_nil_or_concat future with rfl | ⟨future, last, rfl⟩
      · exact .inl (List.append_inj_right' split rfl |> List.singleton_inj.1)
      · right
        rw [List.concat_eq_append] at split kept
        rw [← List.cons_append, ← List.append_assoc] at split
        obtain ⟨rfl, same⟩ := List.append_inj' split rfl
        obtain rfl := List.singleton_inj.1 same
        simp only [List.mem_append, List.mem_singleton, not_or] at kept
        exact ⟨⟨past, future, rfl, kept.1⟩, Ne.symm kept.2⟩

/-! ## Overflow -/

/-- Counts up, unless that leaves the 32 bits. -/
def succ? (n : ObjectId) : Option ObjectId :=
  if n.toNat + 1 < UInt32.size then some (n + 1) else none

/-- Hands out a number, counting with care. -/
def alloc? (p : IdPool) : Option (Except Exhausted (ObjectId × IdPool)) :=
  match p.free with
  | id :: rest => some (.ok (id, { p with free := rest }))
  | [] =>
    if p.next ≤ ObjectId.clientMax then
      (succ? p.next).map fun next => .ok (p.next, { p with next })
    else some (.error (.at p.next))

/-- Lowers the mark, counting with care. -/
def merge? (next : ObjectId) : List ObjectId → Option (ObjectId × List ObjectId)
  | [] => some (next, [])
  | last :: rest => do
    if (← succ? last) = next then merge? last rest else some (next, last :: rest)

/-- Takes a number back, counting with care. -/
def recycle? (p : IdPool) (id : ObjectId) : Option IdPool :=
  if ObjectId.isClient id && id < p.next then do
    let (next, descending) ← merge? p.next (insertSorted id p.free).reverse
    return ⟨next, descending.reverse⟩
  else some p

theorem succ?_of_lt {n limit : ObjectId} (below : n < limit) : succ? n = some (n + 1) := by
  have bound := limit.toNat_lt_size
  rw [UInt32.lt_iff_toNat_lt] at below
  exact if_pos (by omega)

theorem merge?_eq {next : ObjectId} {free : List ObjectId} (below : ∀ id ∈ free, id < next) :
    merge? next free = some (merge next free) := by
  -- Whatever the mark has come down to, the numbers lie below where it was.
  suffices from_here : ∀ mark, merge? mark free = some (merge mark free) from from_here next
  induction free with
  | nil => exact fun mark => rfl
  | cons last rest ih =>
    obtain ⟨first, others⟩ := List.forall_mem_cons.1 below
    intro mark
    rw [merge?, merge, succ?_of_lt first, Option.bind_eq_bind, Option.bind_some]
    split
    · exact ih others last
    · rfl

section

variable {first : ObjectId} {p : IdPool}

theorem alloc?_eq (p : IdPool) : p.alloc? = some p.alloc := by
  cases list : p.free with
  | cons id rest => simp only [alloc?, alloc, list]
  | nil =>
    simp only [alloc?, alloc, list]
    split
    next room => rw [succ?_of_lt (lt_serverMin_iff.2 room), Option.map_some]
    · rfl

theorem Sound.recycle?_eq (sound : p.Sound first) (id : ObjectId) :
    p.recycle? id = some (p.recycle id) := by
  unfold recycle? IdPool.recycle
  split
  next takes =>
    have below : id < p.next := by simpa using (Bool.and_eq_true_iff.1 takes).2
    have under : ∀ x ∈ (insertSorted id p.free).reverse, x < p.next := by
      intro x member
      rw [List.mem_reverse, mem_insertSorted] at member
      rcases member with rfl | member
      · exact below
      · exact (sound.between x member).2
    rw [merge?_eq under]
    rfl
  · rfl

end

/-! ## Pools and sets -/

/-- The pool in order for a set of numbers in use. -/
structure Represents (p : IdPool) (used : Finset ObjectId) : Prop where
  sound : p.Sound ObjectId.clientMin
  mem_iff : ∀ id, id ∈ used ↔ ObjectId.clientMin ≤ id ∧ p.Taken id

theorem full_represents : full.Represents ∅ where
  sound := startingAt_sound (by decide)
  mem_iff id := by
    rw [iff_false_left (Finset.notMem_empty id)]
    rintro ⟨low, below, _⟩
    exact UInt32.not_lt.2 low below

section

variable {p q : IdPool} {used : Finset ObjectId} {id : ObjectId}

theorem Represents.client (represents : p.Represents used) (member : id ∈ used) :
    ObjectId.isClient id = true := by
  obtain ⟨low, below, _⟩ := (represents.mem_iff id).1 member
  have limit := UInt32.lt_of_lt_of_le below represents.sound.next_le
  exact isClient_iff.2 ⟨low, lt_serverMin_iff.1 limit⟩

/-- A set of numbers in use is represented by one pool only. -/
theorem Represents.unique (represents : p.Represents used) (other : q.Represents used) :
    p = q := by
  refine represents.sound.unique other.sound.toOrdered fun x low => ?_
  have mine := represents.mem_iff x
  rw [other.mem_iff x] at mine
  simpa [low] using mine.symm

theorem ne_zero_iff : id ≠ 0 ↔ ObjectId.clientMin ≤ id := by
  rw [UInt32.le_iff_toNat_le, Ne, ← UInt32.toNat_inj]
  exact Nat.pos_iff_ne_zero.symm

/-- The numbers below the mark are 0, those in use and those that are free. -/
theorem Represents.mem_below (represents : p.Represents used) :
    id ∈ insert 0 (used ∪ p.free.toFinset) ↔ id < p.next := by
  rw [Finset.mem_insert, Finset.mem_union, List.mem_toFinset, represents.mem_iff, Taken]
  constructor
  · rintro (rfl | ⟨_, below, _⟩ | free)
    · exact UInt32.lt_of_lt_of_le (by decide) represents.sound.first_le
    · exact below
    · exact (represents.sound.between id free).2
  · intro below
    by_cases zero : id = 0
    · exact .inl zero
    · by_cases free : id ∈ p.free
      · exact .inr (.inr free)
      · exact .inr (.inl ⟨ne_zero_iff.1 zero, below, free⟩)

/-- There are as many numbers below a number as it says. -/
theorem card_of_mem_iff_lt {numbers : Finset ObjectId} {limit : ObjectId}
    (below : ∀ id, id ∈ numbers ↔ id < limit) : numbers.card = limit.toNat := by
  have all : numbers.image UInt32.toNat = Finset.range limit.toNat := by
    ext n
    simp only [Finset.mem_image, below, Finset.mem_range, UInt32.lt_iff_toNat_lt]
    constructor
    · rintro ⟨x, small, rfl⟩
      exact small
    · intro small
      have fits : (UInt32.ofNat n).toNat = n :=
        UInt32.toNat_ofNat_of_lt' (Nat.lt_trans small limit.toNat_lt_size)
      exact ⟨UInt32.ofNat n, by rwa [fits], fits⟩
  rw [← Finset.card_range limit.toNat, ← all,
    Finset.card_image_of_injective _ fun _ _ => UInt32.toNat_inj.1]

theorem Represents.card (represents : p.Represents used) :
    used.card + p.free.length + 1 = p.next.toNat := by
  have zero : 0 ∉ used ∪ p.free.toFinset := by
    rw [Finset.mem_union, List.mem_toFinset, represents.mem_iff]
    rintro (⟨least, _⟩ | free)
    · exact ne_zero_iff.2 least rfl
    · exact ne_zero_iff.2 (represents.sound.between 0 free).1 rfl
  have apart : Disjoint used p.free.toFinset := by
    rw [Finset.disjoint_left]
    intro x member free
    exact ((represents.mem_iff x).1 member).2.2 (List.mem_toFinset.1 free)
  calc used.card + p.free.length + 1
      = (used ∪ p.free.toFinset).card + 1 := by
        rw [Finset.card_union_of_disjoint apart,
          List.toFinset_card_of_nodup represents.sound.nodup]
    _ = (insert 0 (used ∪ p.free.toFinset)).card := (Finset.card_insert_of_notMem zero).symm
    _ = p.next.toNat := card_of_mem_iff_lt fun _ => represents.mem_below

theorem Represents.inUse? (represents : p.Represents used) : p.inUse? = some used.card := by
  have total := represents.card
  have positive : p.next ≠ 0 := by
    intro zero
    rw [zero] at total
    exact absurd total (Nat.succ_ne_zero _)
  rw [IdPool.inUse?, if_neg positive]
  congr 1
  omega

/-! ## Calls -/

/-- The least number of the client's range that is not in use. -/
def IsLeastFree (used : Finset ObjectId) (id : ObjectId) : Prop :=
  (ObjectId.isClient id = true ∧ id ∉ used) ∧
    ∀ x, ObjectId.isClient x = true → x ∉ used → id ≤ x

theorem Represents.alloc_ok (represents : p.Represents used) (handed : p.alloc = .ok (id, q)) :
    IsLeastFree used id ∧ q.Represents (insert id used) := by
  obtain ⟨low, high, free, sound, taken⟩ := represents.sound.alloc_ok handed
  refine ⟨⟨⟨isClient_iff.2 ⟨low, high⟩, fun member => ?_⟩, ?_⟩, sound, ?_⟩
  · exact free ((represents.mem_iff id).1 member).2
  · intro x client absent
    refine represents.sound.alloc_le handed fun taken => absent ?_
    exact (represents.mem_iff x).2 ⟨(isClient_iff.1 client).1, taken⟩
  · intro x
    rw [Finset.mem_insert, represents.mem_iff, taken]
    constructor
    · rintro (rfl | ⟨least, old⟩)
      · exact ⟨low, .inr rfl⟩
      · exact ⟨least, .inl old⟩
    · rintro ⟨least, old | rfl⟩
      · exact .inr ⟨least, old⟩
      · exact .inl rfl

theorem Represents.alloc_error_iff (represents : p.Represents used) :
    (∃ cause, p.alloc = .error cause) ↔ ∀ id, ObjectId.isClient id = true → id ∈ used := by
  constructor
  · rintro ⟨cause, refused⟩ id client
    obtain ⟨low, high⟩ := isClient_iff.1 client
    obtain ⟨none, full⟩ := alloc_error refused
    refine (represents.mem_iff id).2 ⟨low, UInt32.lt_of_le_of_lt high full, ?_⟩
    rw [none]
    exact List.not_mem_nil
  · intro all
    cases handed : p.alloc with
    | error cause => exact ⟨cause, rfl⟩
    | ok result =>
      obtain ⟨⟨⟨client, free⟩, _⟩, _⟩ := represents.alloc_ok handed
      exact absurd (all _ client) free

theorem Represents.alloc_ok_iff (represents : p.Represents used) :
    (∃ q, p.alloc = .ok (id, q)) ↔ IsLeastFree used id := by
  constructor
  · rintro ⟨q, handed⟩
    exact (represents.alloc_ok handed).1
  · rintro ⟨⟨client, free⟩, least⟩
    cases handed : p.alloc with
    | error cause => exact absurd (represents.alloc_error_iff.1 ⟨cause, handed⟩ id client) free
    | ok result =>
      obtain ⟨other, q⟩ := result
      obtain ⟨⟨⟨client', free'⟩, least'⟩, _⟩ := represents.alloc_ok handed
      obtain rfl := UInt32.le_antisymm (least other client' free') (least' id client free)
      exact ⟨q, rfl⟩

theorem Represents.recycle (represents : p.Represents used) (id : ObjectId) :
    (p.recycle id).Represents (used.erase id) := by
  by_cases client : ObjectId.isClient id = true
  · have low := (isClient_iff.1 client).1
    refine ⟨represents.sound.recycle low, fun x => ?_⟩
    rw [Finset.mem_erase, represents.mem_iff, represents.sound.taken_recycle low client]
    constructor
    · rintro ⟨other, least, taken⟩
      exact ⟨least, taken, other⟩
    · rintro ⟨least, taken, other⟩
      exact ⟨other, least, taken⟩
  · have absent : id ∉ used := fun member => client (represents.client member)
    rw [recycle_foreign (by simpa using client), Finset.erase_eq_of_notMem absent]
    exact represents

/-- Taking back a number that is not in use changes nothing. -/
theorem Represents.recycle_of_notMem (represents : p.Represents used) (absent : id ∉ used) :
    p.recycle id = p := by
  by_cases client : ObjectId.isClient id = true
  · refine represents.sound.recycle_of_not_taken fun taken => absent ?_
    exact (represents.mem_iff id).2 ⟨(isClient_iff.1 client).1, taken⟩
  · exact recycle_foreign (by simpa using client)

theorem Represents.answer (represents : p.Represents used) (call : Call) :
    (p.answer call).2.Represents ((p.answer call).1.update used) := by
  cases call with
  | alloc =>
    cases handed : p.alloc with
    | error cause =>
      rw [answer_of_error handed]
      exact represents
    | ok result =>
      rw [answer_of_ok handed]
      exact (represents.alloc_ok handed).2
  | recycle id => exact represents.recycle id

end

/-- After every history, the pool represents the numbers in use. -/
theorem after_represents (calls : List Call) : (full.after calls).Represents (full.used calls) := by
  induction calls using List.reverseRecOn with
  | nil => exact full_represents
  | append_singleton calls call ih =>
    rw [after_concat, used_concat]
    exact ih.answer call

theorem peek_eq_alloc (p : IdPool) : p.peek = p.alloc.map Prod.fst := by
  unfold peek alloc
  split
  · rfl
  · split <;> rfl

/-- A pool that starts with all numbers free, after any calls with any numbers.  Numbers in use
    are those handed out and not taken back since.  The pool hands out the least number that is
    not in use, and refuses exactly if there is none; it can say so beforehand.  Taking back a
    number that is not in use changes nothing.  It knows how many numbers are in use, it never
    counts beyond 32 bits or below 0, and its whole state is determined by the numbers in use. -/
theorem hands_out_least_free (calls : List Call) :
    let p := full.after calls
    let used := full.used calls
    (∀ id, id ∈ used ↔ ∃ past future,
      full.events calls = past ++ .handed id :: future ∧ .returned id ∉ future) ∧
    (∀ id, (∃ q, p.alloc = .ok (id, q)) ↔ IsLeastFree used id) ∧
    (∀ id q, p.alloc = .ok (id, q) →
      full.after (calls ++ [.alloc]) = q ∧ full.used (calls ++ [.alloc]) = insert id used) ∧
    ((∃ cause, p.alloc = .error cause) ↔ ∀ id, ObjectId.isClient id = true → id ∈ used) ∧
    (∀ cause, p.alloc = .error cause →
      full.after (calls ++ [.alloc]) = p ∧ full.used (calls ++ [.alloc]) = used) ∧
    p.peek = p.alloc.map Prod.fst ∧
    (∀ id, full.after (calls ++ [.recycle id]) = p.recycle id ∧
      full.used (calls ++ [.recycle id]) = used.erase id ∧ (id ∉ used → p.recycle id = p)) ∧
    (p.inUse? = some used.card ∧ used.card + p.free.length + 1 = p.next.toNat) ∧
    (p.alloc? = some p.alloc ∧ ∀ id, p.recycle? id = some (p.recycle id)) ∧
    ∀ calls', full.used calls' = used → full.after calls' = p := by
  intro p used
  have represents : p.Represents used := after_represents calls
  refine ⟨fun id => mem_outstanding, fun id => represents.alloc_ok_iff, ?_,
    represents.alloc_error_iff, ?_, peek_eq_alloc p, ?_, ⟨represents.inUse?, represents.card⟩,
    ⟨alloc?_eq p, represents.sound.recycle?_eq⟩, ?_⟩
  · intro id q handed
    rw [after_concat, used_concat, answer_of_ok handed]
    exact ⟨rfl, rfl⟩
  · intro cause refused
    rw [after_concat, used_concat, answer_of_error refused]
    exact ⟨rfl, rfl⟩
  · intro id
    rw [after_concat, used_concat]
    exact ⟨rfl, rfl, represents.recycle_of_notMem⟩
  · intro calls' same
    have represents' := after_represents calls'
    rw [same] at represents'
    exact represents'.unique represents

/-- Numbers come back out of order, twice, and without having been in use: of 1 to 5, the numbers 2
    and 4 are free.  A shorter history with the same numbers in use leaves the same pool. -/
theorem hands_out_least_free_gaps :
    let calls : List Call := List.replicate 6 .alloc ++ [.recycle 4, .recycle 6, .recycle 2,
      .recycle 4, .recycle 0, .recycle 9, .recycle 0xff000001]
    let p := full.after calls
    full.used calls = {1, 3, 5} ∧ (∃ q, p.alloc = .ok (2, q)) ∧ p.inUse? = some 3 ∧
      p.recycle 4 = p ∧
      full.after (List.replicate 5 .alloc ++ [.recycle 2, .recycle 4]) = p := by
  intro calls p
  have three : full.used calls = {1, 3, 5} := by decide +kernel
  obtain ⟨_, _, _, _, _, _, returned, ⟨count, _⟩, _, determined⟩ := hands_out_least_free calls
  refine ⟨three, ⟨_, rfl⟩, ?_, (returned 4).2.2 (by rw [three]; decide), determined _ ?_⟩
  · rw [count, three]
    rfl
  · rw [three]
    decide +kernel

end Wayland.IdPool
