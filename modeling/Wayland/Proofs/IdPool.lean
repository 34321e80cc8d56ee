import Wayland.IdPool

/-! # The numbers that a pool has handed out

A pool is a mark and a list of free numbers below it; what it stands for is the set of numbers
that are `Taken`.  Handing out a number adds one to this set that was not in it, taking a number
back removes it, and merging the end of the free list into the mark does not change the set at
all.

`Ordered first p` is what makes this true: the free numbers are ascending, lie between `first` and
the mark, and do not touch the mark.  The pool of a connection is `Sound`: its mark does not lie
beyond the client's range either.
-/

namespace Wayland.IdPool

/-- The numbers that a pool has handed out, and the reserved ones. -/
def Taken (p : IdPool) (id : ObjectId) : Prop := id < p.next ∧ id ∉ p.free

/-- A pool in order, whose numbers below `first` are reserved, wherever its mark lies. -/
structure Ordered (first : ObjectId) (p : IdPool) : Prop where
  first_le : first ≤ p.next
  ascending : p.free.Pairwise (· < ·)
  between : ∀ id ∈ p.free, first ≤ id ∧ id < p.next
  apart : ∀ id ∈ p.free, id + 1 ≠ p.next

/-- A pool in order, with its mark within the numbers of the client. -/
structure Sound (first : ObjectId) (p : IdPool) : Prop extends Ordered first p where
  next_le : p.next ≤ ObjectId.serverMin

theorem startingAt_ordered {first start : ObjectId} (low : first ≤ start) :
    (startingAt start).Ordered first where
  first_le := low
  ascending := List.Pairwise.nil
  between := by intro id member; cases member
  apart := by intro id member; cases member

theorem startingAt_sound {first : ObjectId} (low : first ≤ ObjectId.serverMin) :
    (startingAt first).Sound first :=
  ⟨startingAt_ordered (UInt32.le_refl first), low⟩

/-- A number below another one can be counted up without leaving the 32 bits. -/
theorem toNat_succ {a b : ObjectId} (h : a < b) : (a + 1).toNat = a.toNat + 1 := by
  have bound := b.toNat_lt
  rw [UInt32.lt_iff_toNat_lt] at h
  rw [UInt32.toNat_add]
  simp
  omega

theorem lt_succ_iff {a b x : ObjectId} (h : a < b) : x < a + 1 ↔ x < a ∨ x = a := by
  rw [UInt32.lt_iff_toNat_lt, UInt32.lt_iff_toNat_lt, ← UInt32.toNat_inj, toNat_succ h]
  omega

theorem lt_serverMin_iff {id : ObjectId} : id < ObjectId.serverMin ↔ id ≤ ObjectId.clientMax := by
  rw [UInt32.lt_iff_toNat_lt, UInt32.le_iff_toNat_le]
  simp [ObjectId.serverMin, ObjectId.clientMax]
  omega

theorem isClient_iff {id : ObjectId} : ObjectId.isClient id = true ↔
    ObjectId.clientMin ≤ id ∧ id ≤ ObjectId.clientMax := by
  simp [ObjectId.isClient]

/-- The compositor's numbers are not taken. -/
theorem Sound.isClient {first id : ObjectId} {p : IdPool} (sound : p.Sound first)
    (least : ObjectId.clientMin ≤ id) (taken : p.Taken id) : ObjectId.isClient id = true :=
  isClient_iff.2 ⟨least, lt_serverMin_iff.1 (UInt32.lt_of_lt_of_le taken.1 sound.next_le)⟩

/-! ## Handing out -/

section

variable {first id : ObjectId} {p p' : IdPool}

theorem Ordered.pop {rest : List ObjectId} (ordered : p.Ordered first)
    (free : p.free = id :: rest) : Ordered first { p with free := rest } where
  first_le := ordered.first_le
  ascending := by
    have ascending := ordered.ascending
    rw [free, List.pairwise_cons] at ascending
    exact ascending.2
  between x member := ordered.between x (by simp [free, member])
  apart x member := ordered.apart x (by simp [free, member])

theorem Ordered.taken_pop {rest : List ObjectId} (ordered : p.Ordered first)
    (free : p.free = id :: rest) (x : ObjectId) :
    Taken { p with free := rest } x ↔ p.Taken x ∨ x = id := by
  have ascending := ordered.ascending
  rw [free, List.pairwise_cons] at ascending
  have below : id < p.next := (ordered.between id (by simp [free])).2
  simp only [Taken, free, List.mem_cons, not_or]
  constructor
  · rintro ⟨below, absent⟩
    by_cases same : x = id
    · exact .inr same
    · exact .inl ⟨below, same, absent⟩
  · rintro (⟨below, _, absent⟩ | rfl)
    · exact ⟨below, absent⟩
    · exact ⟨below, fun member => UInt32.lt_irrefl _ (ascending.1 _ member)⟩

/-- The mark may move up as long as nothing is free below it. -/
theorem Ordered.grow (ordered : p.Ordered first) (free : p.free = [])
    (room : p.next < ObjectId.serverMin) : Ordered first { p with next := p.next + 1 } where
  first_le := by
    have lower := ordered.first_le
    have succ := toNat_succ room
    rw [UInt32.le_iff_toNat_le] at lower
    show first ≤ p.next + 1
    rw [UInt32.le_iff_toNat_le]
    omega
  ascending := by simp [free]
  between := by simp [free]
  apart := by simp [free]

/-- A number that is handed out was not taken before, and is the only one taken in addition. -/
theorem Ordered.alloc_ok (ordered : p.Ordered first) (handed : p.alloc = .ok (id, p')) :
    first ≤ id ∧ ¬ p.Taken id ∧ p'.Ordered first ∧ ∀ x, p'.Taken x ↔ p.Taken x ∨ x = id := by
  unfold alloc at handed
  split at handed
  next least rest free =>
    cases handed
    have member : id ∈ p.free := by simp [free]
    exact ⟨(ordered.between id member).1, fun taken => taken.2 member, ordered.pop free,
      ordered.taken_pop free⟩
  next free =>
    split at handed
    next room =>
      cases handed
      have limit := lt_serverMin_iff.2 room
      refine ⟨ordered.first_le, fun taken => UInt32.lt_irrefl _ taken.1, ordered.grow free limit,
        ?_⟩
      intro x
      simp [Taken, free, lt_succ_iff limit]
    next => cases handed

/-- No number that is not taken lies below the one that is handed out. -/
theorem Ordered.alloc_le {x : ObjectId} (ordered : p.Ordered first)
    (handed : p.alloc = .ok (id, p')) (free : ¬ p.Taken x) : id ≤ x := by
  unfold alloc at handed
  split at handed
  next least rest list =>
    cases handed
    by_cases below : x < p.next
    · have member : x ∈ p.free := Classical.byContradiction fun absent => free ⟨below, absent⟩
      have ascending := ordered.ascending
      rw [list, List.pairwise_cons] at ascending
      rw [list, List.mem_cons] at member
      rcases member with rfl | later
      · exact UInt32.le_refl _
      · exact UInt32.le_of_lt (ascending.1 x later)
    · have under := (ordered.between id (by simp [list])).2
      exact UInt32.le_of_lt (UInt32.lt_of_lt_of_le under (UInt32.not_lt.1 below))
  next list =>
    split at handed
    · cases handed
      exact UInt32.not_lt.1 fun below => free ⟨below, by simp [list]⟩
    · cases handed

theorem alloc_error {cause : Exhausted} (refused : p.alloc = .error cause) :
    p.free = [] ∧ ObjectId.clientMax < p.next := by
  unfold alloc at refused
  split at refused
  · cases refused
  next list =>
    split at refused
    · cases refused
    next full => exact ⟨list, UInt32.not_le.1 full⟩

/-- The mark does not leave the range, and then neither does a number below it. -/
theorem alloc_bounds (limit : p.next ≤ ObjectId.serverMin) (below : ∀ x ∈ p.free, x < p.next)
    (handed : p.alloc = .ok (id, p')) :
    id ≤ ObjectId.clientMax ∧ p'.next ≤ ObjectId.serverMin := by
  unfold alloc at handed
  split at handed
  next least rest free =>
    cases handed
    have high := below id (by simp [free])
    exact ⟨lt_serverMin_iff.1 (UInt32.lt_of_lt_of_le high limit), limit⟩
  next free =>
    split at handed
    next room =>
      cases handed
      refine ⟨room, ?_⟩
      have inside := lt_serverMin_iff.2 room
      have succ := toNat_succ inside
      rw [UInt32.lt_iff_toNat_lt] at inside
      show p.next + 1 ≤ ObjectId.serverMin
      rw [UInt32.le_iff_toNat_le]
      omega
    next => cases handed

theorem Sound.alloc_ok (sound : p.Sound first) (handed : p.alloc = .ok (id, p')) :
    first ≤ id ∧ id ≤ ObjectId.clientMax ∧ ¬ p.Taken id ∧ p'.Sound first ∧
      ∀ x, p'.Taken x ↔ p.Taken x ∨ x = id := by
  obtain ⟨low, free, ordered, taken⟩ := sound.toOrdered.alloc_ok handed
  obtain ⟨high, limit⟩ := alloc_bounds sound.next_le (fun x member => (sound.between x member).2)
    handed
  exact ⟨low, high, free, ⟨ordered, limit⟩, taken⟩

end

/-! ## Taking back -/

theorem mem_insertSorted {id x : ObjectId} {free : List ObjectId} :
    x ∈ insertSorted id free ↔ x = id ∨ x ∈ free := by
  induction free with
  | nil => simp [insertSorted]
  | cons y free ih =>
    unfold insertSorted
    split
    · simp
    · split
      next same => subst same; simp
      next =>
        rw [List.mem_cons, List.mem_cons, ih]
        exact or_left_comm

theorem insertSorted_ascending {id : ObjectId} {free : List ObjectId}
    (ascending : free.Pairwise (· < ·)) : (insertSorted id free).Pairwise (· < ·) := by
  induction free with
  | nil => simp [insertSorted]
  | cons y free ih =>
    rw [List.pairwise_cons] at ascending
    unfold insertSorted
    split
    next before =>
      simp only [List.pairwise_cons, List.mem_cons]
      refine ⟨?_, ascending⟩
      rintro x (rfl | member)
      · exact before
      · exact UInt32.lt_trans before (ascending.1 x member)
    next notBefore =>
      split
      · simpa using ascending
      next differs =>
        rw [List.pairwise_cons]
        refine ⟨?_, ih ascending.2⟩
        intro x member
        rcases mem_insertSorted.1 member with rfl | member
        · exact UInt32.lt_of_le_of_ne (UInt32.not_lt.1 notBefore) (fun h => differs h.symm)
        · exact ascending.1 x member

/-- Merging gives back free numbers and mark: the same numbers are taken, and what is left of the
    list still lies below the mark and no longer touches it. -/
theorem merge_spec {first : ObjectId} (free : List ObjectId) (next : ObjectId)
    (descending : free.Pairwise (· > ·)) (between : ∀ id ∈ free, first ≤ id ∧ id < next)
    (lower : first ≤ next) :
    first ≤ (merge next free).1 ∧ (merge next free).1 ≤ next ∧
      (merge next free).2.Pairwise (· > ·) ∧
      (∀ id ∈ (merge next free).2, first ≤ id ∧ id < (merge next free).1 ∧
        id + 1 ≠ (merge next free).1) ∧
      ∀ x, x < (merge next free).1 ∧ x ∉ (merge next free).2 ↔ x < next ∧ x ∉ free := by
  -- The list comes greatest number first, and the mark moves down along it.
  induction free generalizing next with
  | nil => simp [merge, lower]
  | cons last free ih =>
    rw [List.pairwise_cons] at descending
    obtain ⟨lastLow, lastHigh⟩ := between last (by simp)
    unfold merge
    split
    next touches =>
      have below : ∀ id ∈ free, first ≤ id ∧ id < last := fun id member =>
        ⟨(between id (by simp [member])).1, descending.1 id member⟩
      obtain ⟨low, high, sorted, rest, same⟩ := ih last descending.2 below lastLow
      refine ⟨low, UInt32.le_of_lt (UInt32.lt_of_le_of_lt high lastHigh), sorted, rest, ?_⟩
      intro x
      rw [same, ← touches, lt_succ_iff lastHigh, List.mem_cons, not_or]
      constructor
      · rintro ⟨below, absent⟩
        exact ⟨.inl below, fun equal => UInt32.lt_irrefl _ (equal ▸ below), absent⟩
      · rintro ⟨below | equal, differs, absent⟩
        · exact ⟨below, absent⟩
        · exact absurd equal differs
    next apart =>
      refine ⟨lower, UInt32.le_refl _, List.pairwise_cons.2 descending, ?_, fun x => Iff.rfl⟩
      intro id member
      obtain ⟨low, high⟩ := between id member
      refine ⟨low, high, ?_⟩
      rcases List.mem_cons.1 member with rfl | member
      · exact apart
      · intro (touches : id + 1 = next)
        have before := descending.1 id member
        have succ := toNat_succ high
        rw [gt_iff_lt, UInt32.lt_iff_toNat_lt] at before
        rw [UInt32.lt_iff_toNat_lt, ← touches] at lastHigh
        omega

section

variable {first id : ObjectId} {p : IdPool}

theorem recycle_foreign (foreign : ObjectId.isClient id = false) : p.recycle id = p := by
  simp [recycle, foreign]

/-- What a pool looks like after it has taken back a number that was below its mark. -/
theorem Ordered.recycle_below (ordered : p.Ordered first) (reserved : first ≤ id)
    (below : id < p.next) (client : ObjectId.isClient id = true) :
    (p.recycle id).Ordered first ∧ (p.recycle id).next ≤ p.next ∧
      ∀ x, (p.recycle id).Taken x ↔ p.Taken x ∧ x ≠ id := by
  have descending : (insertSorted id p.free).reverse.Pairwise (· > ·) :=
    List.pairwise_reverse.2 (insertSorted_ascending ordered.ascending)
  have between : ∀ x ∈ (insertSorted id p.free).reverse, first ≤ x ∧ x < p.next := by
    intro x member
    rw [List.mem_reverse, mem_insertSorted] at member
    rcases member with rfl | member
    · exact ⟨reserved, below⟩
    · exact ordered.between x member
  obtain ⟨low, high, sorted, rest, same⟩ :=
    merge_spec _ p.next descending between ordered.first_le
  have equal : p.recycle id = ⟨(merge p.next (insertSorted id p.free).reverse).1,
      (merge p.next (insertSorted id p.free).reverse).2.reverse⟩ := by
    simp [recycle, client, below]
  rw [equal]
  refine ⟨?_, high, ?_⟩
  · exact
      { first_le := low
        ascending := List.pairwise_reverse.2 sorted
        between := fun x member => by
          obtain ⟨low, high, _⟩ := rest x (List.mem_reverse.1 member)
          exact ⟨low, high⟩
        apart := fun x member => (rest x (List.mem_reverse.1 member)).2.2 }
  · intro x
    simp only [Taken, List.mem_reverse, same, mem_insertSorted, not_or]
    constructor
    · rintro ⟨below, differs, absent⟩
      exact ⟨⟨below, absent⟩, differs⟩
    · rintro ⟨⟨below, absent⟩, differs⟩
      exact ⟨below, differs, absent⟩

theorem recycle_above (above : ¬ id < p.next) : p.recycle id = p := by
  simp [recycle, above]

theorem Ordered.recycle (ordered : p.Ordered first) (reserved : first ≤ id) :
    (p.recycle id).Ordered first ∧ (p.recycle id).next ≤ p.next := by
  by_cases client : ObjectId.isClient id = true
  · by_cases below : id < p.next
    · obtain ⟨after, lower, _⟩ := ordered.recycle_below reserved below client
      exact ⟨after, lower⟩
    · rw [recycle_above below]
      exact ⟨ordered, UInt32.le_refl _⟩
  · rw [recycle_foreign (by simpa using client)]
    exact ⟨ordered, UInt32.le_refl _⟩

theorem Ordered.taken_recycle (ordered : p.Ordered first) (reserved : first ≤ id)
    (client : ObjectId.isClient id = true) (x : ObjectId) :
    (p.recycle id).Taken x ↔ p.Taken x ∧ x ≠ id := by
  by_cases below : id < p.next
  · exact (ordered.recycle_below reserved below client).2.2 x
  · -- The number was never handed out, so there is nothing to take back.
    rw [recycle_above below]
    constructor
    · intro taken
      exact ⟨taken, fun equal => below (equal ▸ taken.1)⟩
    · exact And.left

theorem Sound.recycle (sound : p.Sound first) (reserved : first ≤ id) :
    (p.recycle id).Sound first := by
  obtain ⟨after, lower⟩ := sound.toOrdered.recycle reserved
  exact ⟨after, UInt32.le_trans lower sound.next_le⟩

theorem Sound.taken_recycle (sound : p.Sound first) (reserved : first ≤ id)
    (client : ObjectId.isClient id = true) (x : ObjectId) :
    (p.recycle id).Taken x ↔ p.Taken x ∧ x ≠ id :=
  sound.toOrdered.taken_recycle reserved client x

theorem insertSorted_of_mem {free : List ObjectId} (ascending : free.Pairwise (· < ·))
    (member : id ∈ free) : insertSorted id free = free := by
  induction free with
  | nil => cases member
  | cons x free ih =>
    rw [List.pairwise_cons] at ascending
    unfold insertSorted
    rcases List.mem_cons.1 member with rfl | later
    · rw [if_neg (UInt32.lt_irrefl id), if_pos rfl]
    · have before := ascending.1 id later
      rw [if_neg (UInt32.not_lt.2 (UInt32.le_of_lt before)), if_neg (UInt32.ne_of_lt before).symm,
        ih ascending.2 later]

/-- A number that is not taken cannot be taken back: nothing changes. -/
theorem Ordered.recycle_of_not_taken (ordered : p.Ordered first) (free : ¬ p.Taken id) :
    p.recycle id = p := by
  by_cases below : id < p.next
  · have member : id ∈ p.free := Classical.byContradiction fun absent => free ⟨below, absent⟩
    by_cases client : ObjectId.isClient id = true
    · -- It is free already, and no free number touches the mark.
      have apart : merge p.next p.free.reverse = (p.next, p.free.reverse) := by
        cases list : p.free.reverse with
        | nil => rfl
        | cons last rest =>
          have free : last ∈ p.free := List.mem_reverse.1 (by simp [list])
          rw [merge, if_neg (ordered.apart last free)]
      simp [IdPool.recycle, client, below, insertSorted_of_mem ordered.ascending member, apart]
    · exact recycle_foreign (by simpa using client)
  · exact recycle_above below

end

/-! ## One pool for each set -/

section

variable {first id : ObjectId} {p q : IdPool}

theorem Ordered.nodup (ordered : p.Ordered first) : p.free.Nodup :=
  ordered.ascending.imp UInt32.ne_of_lt

/-- Below the mark, a number is free exactly if it is not taken. -/
theorem Ordered.mem_free (ordered : p.Ordered first) :
    id ∈ p.free ↔ (first ≤ id ∧ id < p.next) ∧ ¬ p.Taken id := by
  constructor
  · intro free
    exact ⟨ordered.between id free, fun taken => taken.2 free⟩
  · rintro ⟨⟨_, below⟩, free⟩
    exact Classical.byContradiction fun absent => free ⟨below, absent⟩

/-- The number right below the mark is taken, or the mark would be lower. -/
theorem Ordered.exists_last (ordered : p.Ordered first) (above : first < p.next) :
    ∃ last, first ≤ last ∧ p.Taken last ∧ last.toNat + 1 = p.next.toNat := by
  have room : first.toNat < p.next.toNat := UInt32.lt_iff_toNat_lt.1 above
  have before : (p.next - 1).toNat = p.next.toNat - 1 := by
    refine UInt32.toNat_sub_of_le _ _ (UInt32.le_iff_toNat_le.2 ?_)
    exact Nat.le_trans (Nat.le_add_left 1 first.toNat) room
  have below : p.next - 1 < p.next := UInt32.lt_iff_toNat_lt.2 (by omega)
  have touches : p.next - 1 + 1 = p.next := by
    rw [← UInt32.toNat_inj, toNat_succ below]
    omega
  refine ⟨p.next - 1, UInt32.le_iff_toNat_le.2 (by omega), ⟨below, ?_⟩, by omega⟩
  exact fun free => ordered.apart _ free touches

theorem Ordered.next_le (ordered : p.Ordered first) (other : q.Ordered first)
    (taken : ∀ x, first ≤ x → p.Taken x → q.Taken x) : p.next ≤ q.next := by
  refine UInt32.not_lt.1 fun higher => ?_
  obtain ⟨last, low, mine, touches⟩ :=
    ordered.exists_last (UInt32.lt_of_le_of_lt other.first_le higher)
  have under := (taken last low mine).1
  rw [UInt32.lt_iff_toNat_lt] at higher under
  omega

/-- Pools in order with the same numbers taken are the same. -/
theorem Ordered.unique (ordered : p.Ordered first) (other : q.Ordered first)
    (same : ∀ x, first ≤ x → (p.Taken x ↔ q.Taken x)) : p = q := by
  have next : p.next = q.next :=
    UInt32.le_antisymm (ordered.next_le other fun x low => (same x low).1)
      (other.next_le ordered fun x low => (same x low).2)
  have members : p.free.Perm q.free := by
    rw [List.perm_ext_iff_of_nodup ordered.nodup other.nodup]
    intro x
    rw [ordered.mem_free, other.mem_free, next]
    exact and_congr_right fun between => not_congr (same x between.1)
  have free : p.free = q.free := by
    refine members.eq_of_pairwise ?_ ordered.ascending other.ascending
    intro a b _ _ ab ba
    exact absurd (UInt32.lt_trans ab ba) (UInt32.lt_irrefl _)
  cases p
  cases q
  simp_all

end

end Wayland.IdPool
