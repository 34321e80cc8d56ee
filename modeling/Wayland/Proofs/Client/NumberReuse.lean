import Wayland.Proofs.Client.TableHistory

/-! # Numbers are not reused too early

A number that the compositor has heard of is given to another object only after the compositor
has let go of it, and each time it has to let go anew.

Histories are lists of happenings, and positions in them are times.  `Accounted` relates the
history of a run to the table at its end.  For each number only the `Latest` creation matters to
the table: its object is still there and remembers whether the compositor has heard of it or let
go of it, or it is gone, and then it was let go if it was ever announced.  The four lemmas
`Accounted.quiet`, `.created`, `.announced` and `.deleted` are the steps of the induction.
-/

namespace Wayland.Client

variable {δ : Type}

/-! ## Positions in a history -/

theorem getElem?_snoc {h : List Happening} {x y : Happening} {i : Nat} :
    (h ++ [x])[i]? = some y ↔ h[i]? = some y ∨ i = h.length ∧ x = y := by
  rcases Nat.lt_trichotomy i h.length with before | rfl | behind
  · simp [List.getElem?_append_left before, Nat.ne_of_lt before]
  · simp
  · have outside : h[i]? = none := List.getElem?_eq_none (by omega)
    have outside' : (h ++ [x])[i]? = none := List.getElem?_eq_none (by simp; omega)
    simp [outside, outside', Nat.ne_of_gt behind]

theorem lt_of_getElem? {h : List Happening} {x : Happening} {i : Nat} (at_i : h[i]? = some x) :
    i < h.length :=
  (List.getElem?_eq_some_iff.1 at_i).1

/-- The last time that a number was given to an object. -/
structure Latest (h : List Happening) (i : Nat) (id : ObjectId) (g : Generation) : Prop where
  created : h[i]? = some (.created id g)
  last : ∀ j g', h[j]? = some (.created id g') → j ≤ i

/-- After a time, the compositor let go of a number. -/
def DeletedAfter (h : List Happening) (i : Nat) (id : ObjectId) : Prop :=
  ∃ d, i < d ∧ h[d]? = some (.deleted id)

section

variable {h : List Happening} {x : Happening} {i : Nat} {id : ObjectId} {g : Generation}

theorem DeletedAfter.snoc (deleted : DeletedAfter h i id) : DeletedAfter (h ++ [x]) i id := by
  obtain ⟨d, later, at_d⟩ := deleted
  exact ⟨d, later, getElem?_snoc.2 (.inl at_d)⟩

/-- The latest creation stays the latest until the next one of the same number. -/
theorem Latest.of_snoc (latest : Latest (h ++ [x]) i id g) (other : ∀ g', x ≠ .created id g') :
    Latest h i id g where
  created := by
    obtain old | ⟨_, same⟩ := getElem?_snoc.1 latest.created
    · exact old
    · exact absurd same (other g)
  last := by
    intro j g' at_j
    exact latest.last j g' (getElem?_snoc.2 (.inl at_j))

theorem exists_latest {j : Nat} (at_j : h[j]? = some (.created id g)) :
    ∃ i g', j ≤ i ∧ Latest h i id g' := by
  -- The distance to the end of the history shrinks as long as there is a later creation.
  generalize distance : h.length - j = n
  induction n using Nat.strongRecOn generalizing j g with
  | ind n ih =>
    by_cases later : ∃ k g', j < k ∧ h[k]? = some (.created id g')
    · obtain ⟨k, g', behind, at_k⟩ := later
      have inside := lt_of_getElem? at_k
      obtain ⟨i, g'', upper, latest⟩ := ih (h.length - k) (by omega) at_k rfl
      exact ⟨i, g'', by omega, latest⟩
    · refine ⟨j, g, Nat.le_refl j, at_j, ?_⟩
      intro k g' at_k
      apply Nat.le_of_not_lt
      intro behind
      exact later ⟨k, g', behind, at_k⟩

end

/-! ## History and table -/

/-- What is remembered about the object with a number. -/
structure Standing where
  generation : Generation
  announced : Bool
  idDeleted : Bool

/-- What the table remembers about the object with a number. -/
def ObjectTable.standing? (t : ObjectTable δ) (id : ObjectId) : Option Standing :=
  (t.get? id).map fun entry => ⟨entry.generation, entry.announced, entry.idDeleted⟩

/-- A history and the table at its end. -/
structure Accounted (h : List Happening) (t : ObjectTable δ) : Prop where
  client : ∀ (i : Nat) id g, h[i]? = some (.created id g) → ObjectId.isClient id = true
  below : ∀ (i : Nat) id g, h[i]? = some (.created id g) → g < t.nextGeneration
  heard : ∀ id g, Happening.announced id g ∈ h → g < t.nextGeneration
  ordered : ∀ (i j : Nat) id g g', h[i]? = some (.created id g) →
    h[j]? = some (.created id g') → i < j → g < g'
  present : ∀ i id g s, Latest h i id g → t.standing? id = some s →
    s.generation = g ∧ (Happening.announced id g ∈ h → s.announced = true) ∧
      (s.idDeleted = true → DeletedAfter h i id)
  absent : ∀ i id g, Latest h i id g → t.standing? id = none →
    Happening.announced id g ∈ h → DeletedAfter h i id
  /-- What the rest is there for: an object that was announced and has a successor was let go
      before its first successor was created. -/
  superseded : ∀ (i j : Nat) id g g', h[i]? = some (.created id g) →
    h[j]? = some (.created id g') → i < j → Happening.announced id g ∈ h →
      ∃ d, i < d ∧ h[d]? = some (.deleted id) ∧
        ∀ (n : Nat) g'', h[n]? = some (.created id g'') → i < n → d < n

theorem accounted_nil (t : ObjectTable δ) : Accounted [] t where
  client := by simp
  below := by simp
  heard := by simp
  ordered := by simp
  present := fun i id g s latest => absurd latest.created (by simp)
  absent := fun i id g latest => absurd latest.created (by simp)
  superseded := by simp

section

variable {h : List Happening} {t t' : ObjectTable δ} {id : ObjectId}

/-- Entries keep what matters, or go once that is allowed. -/
theorem Accounted.quiet (accounted : Accounted h t) (next : t.nextGeneration ≤ t'.nextGeneration)
    (kept : ∀ x, ObjectId.isClient x = true → t'.standing? x = t.standing? x ∨
      t'.standing? x = none ∧
        ∀ s, t.standing? x = some s → s.announced = true → s.idDeleted = true) :
    Accounted h t' where
  client := accounted.client
  below := fun i x g at_i => Nat.lt_of_lt_of_le (accounted.below i x g at_i) next
  heard := fun x g announced => Nat.lt_of_lt_of_le (accounted.heard x g announced) next
  ordered := accounted.ordered
  present := by
    intro i x g s latest found
    obtain same | ⟨gone, _⟩ := kept x (accounted.client i x g latest.created)
    · exact accounted.present i x g s latest (same ▸ found)
    · rw [gone] at found
      cases found
  absent := by
    intro i x g latest gone announced
    obtain same | ⟨_, allowed⟩ := kept x (accounted.client i x g latest.created)
    · exact accounted.absent i x g latest (same ▸ gone) announced
    · cases found : t.standing? x with
      | none => exact accounted.absent i x g latest found announced
      | some s =>
        obtain ⟨_, remembered, deleted⟩ := accounted.present i x g s latest found
        exact deleted (allowed s found (remembered announced))
  superseded := accounted.superseded

/-- An announced object that has a successor, or whose number no object has, was let go. -/
theorem Accounted.let_go {i : Nat} {g : Generation} (accounted : Accounted h t)
    (at_i : h[i]? = some (.created id g)) (heard : .announced id g ∈ h)
    (gone : (∃ n g', h[n]? = some (.created id g') ∧ i < n) ∨ t.standing? id = none) :
    ∃ d, i < d ∧ h[d]? = some (.deleted id) ∧
      ∀ (n : Nat) g', h[n]? = some (.created id g') → i < n → d < n := by
  by_cases successor : ∃ n g', h[n]? = some (.created id g') ∧ i < n
  · -- Whoever follows was checked when it was created.
    obtain ⟨n, g', at_n, later⟩ := successor
    exact accounted.superseded i n id g g' at_i at_n later heard
  · have latest : Latest h i id g := by
      refine ⟨at_i, ?_⟩
      intro n g' at_n
      apply Nat.le_of_not_lt
      intro later
      exact successor ⟨n, g', at_n, later⟩
    obtain ⟨d, later, at_d⟩ := accounted.absent i id g latest (gone.resolve_left successor) heard
    refine ⟨d, later, at_d, ?_⟩
    intro n g' at_n behind
    exact absurd ⟨n, g', at_n, behind⟩ successor

/-- What is known about an object stays known while other objects are announced. -/
theorem Accounted.present_snoc {x : Happening} {i : Nat} {g : Generation} {s : Standing}
    (accounted : Accounted h t) (latest : Latest h i id g) (found : t.standing? id = some s)
    (unheard : x ≠ .announced id g) :
    s.generation = g ∧ (.announced id g ∈ h ++ [x] → s.announced = true) ∧
      (s.idDeleted = true → DeletedAfter (h ++ [x]) i id) := by
  obtain ⟨generation, remembered, deleted⟩ := accounted.present i id g s latest found
  refine ⟨generation, ?_, fun flag => (deleted flag).snoc⟩
  intro announced
  obtain before | now := List.mem_append.1 announced
  · exact remembered before
  · exact absurd (List.mem_singleton.1 now).symm unheard

theorem Accounted.absent_snoc {x : Happening} {i : Nat} {g : Generation}
    (accounted : Accounted h t) (latest : Latest h i id g) (gone : t.standing? id = none)
    (unheard : x ≠ .announced id g) (announced : .announced id g ∈ h ++ [x]) :
    DeletedAfter (h ++ [x]) i id := by
  obtain before | now := List.mem_append.1 announced
  · exact (accounted.absent i id g latest gone before).snoc
  · exact absurd (List.mem_singleton.1 now).symm unheard

/-- A new object gets a number that no object has. -/
theorem Accounted.created (accounted : Accounted h t) (client : ObjectId.isClient id = true)
    (unused : t.standing? id = none) (next : t'.nextGeneration = t.nextGeneration + 1)
    (lookup : ∀ x, t'.standing? x =
      if x = id then some ⟨t.nextGeneration, false, false⟩ else t.standing? x) :
    Accounted (h ++ [.created id t.nextGeneration]) t' where
  client := by
    intro i x g at_i
    obtain old | ⟨_, new⟩ := getElem?_snoc.1 at_i
    · exact accounted.client i x g old
    · cases new
      exact client
  below := by
    intro i x g at_i
    rw [next]
    obtain old | ⟨_, new⟩ := getElem?_snoc.1 at_i
    · exact Nat.lt_succ_of_lt (accounted.below i x g old)
    · cases new
      exact Nat.lt_succ_self _
  heard := by
    intro x g announced
    rw [next]
    exact Nat.lt_succ_of_lt (accounted.heard x g (by simpa using announced))
  ordered := by
    intro i j x g g' at_i at_j before
    obtain old | ⟨isLast, new⟩ := getElem?_snoc.1 at_i
    · obtain old' | ⟨_, new'⟩ := getElem?_snoc.1 at_j
      · exact accounted.ordered i j x g g' old old' before
      · cases new'
        exact accounted.below i id g old
    · -- Nothing comes after the new object.
      have inside := lt_of_getElem? at_j
      simp at inside
      omega
  present := by
    intro i x g s latest found
    rw [lookup] at found
    split at found
    next isNew =>
      subst isNew
      cases found
      have atEnd := latest.last h.length t.nextGeneration (by simp)
      obtain old | ⟨_, new⟩ := getElem?_snoc.1 latest.created
      · have inside := lt_of_getElem? old
        omega
      · cases new
        refine ⟨rfl, ?_, nofun⟩
        -- The generation is new, so the compositor cannot have heard of the object.
        intro announced
        have old := accounted.heard x t.nextGeneration (by simpa using announced)
        exact absurd old (Nat.lt_irrefl _)
    next other =>
      have before := latest.of_snoc (by rintro g' ⟨⟩; exact other rfl)
      exact accounted.present_snoc before found nofun
  absent := by
    intro i x g latest gone announced
    rw [lookup] at gone
    split at gone
    · cases gone
    next other =>
      have before := latest.of_snoc (by rintro g' ⟨⟩; exact other rfl)
      exact accounted.absent_snoc before gone nofun announced
  superseded := by
    intro i j x g g' at_i at_j before announced
    have heard : Happening.announced x g ∈ h := by simpa using announced
    have inside := lt_of_getElem? at_j
    simp at inside
    obtain old | ⟨isLast, _⟩ := getElem?_snoc.1 at_i
    · have gone : (∃ n g'', h[n]? = some (.created x g'') ∧ i < n) ∨ t.standing? x = none := by
        obtain old' | ⟨_, new⟩ := getElem?_snoc.1 at_j
        · exact .inl ⟨j, g', old', before⟩
        · cases new
          exact .inr unused
      obtain ⟨d, later, at_d, first⟩ := accounted.let_go old heard gone
      refine ⟨d, later, getElem?_snoc.2 (.inl at_d), ?_⟩
      intro n g'' at_n behind
      obtain old' | ⟨isLast, _⟩ := getElem?_snoc.1 at_n
      · exact first n g'' old' behind
      · rw [isLast]
        exact lt_of_getElem? at_d
    · omega

/-- Something other than a creation happens.  What the compositor hears of is never older than an
    object that has the number. -/
theorem Accounted.extend {x : Happening} (accounted : Accounted h t)
    (next : t'.nextGeneration = t.nextGeneration) (noCreation : ∀ id g, x ≠ .created id g)
    (heard : ∀ id g, x = .announced id g → g < t.nextGeneration ∧
      ∀ (j : Nat) g', h[j]? = some (.created id g') → g' ≤ g)
    (present : ∀ i id g s, Latest h i id g → t'.standing? id = some s →
      s.generation = g ∧ (.announced id g ∈ h ++ [x] → s.announced = true) ∧
        (s.idDeleted = true → DeletedAfter (h ++ [x]) i id))
    (absent : ∀ i id g, Latest h i id g → t'.standing? id = none → .announced id g ∈ h ++ [x] →
      DeletedAfter (h ++ [x]) i id) :
    Accounted (h ++ [x]) t' := by
  have old {i : Nat} {id : ObjectId} {g : Generation}
      (at_i : (h ++ [x])[i]? = some (.created id g)) : h[i]? = some (.created id g) := by
    obtain old | ⟨_, new⟩ := getElem?_snoc.1 at_i
    · exact old
    · exact absurd new (noCreation id g)
  refine ⟨?_, ?_, ?_, ?_, ?_, ?_, ?_⟩
  · intro i id g at_i
    exact accounted.client i id g (old at_i)
  · intro i id g at_i
    rw [next]
    exact accounted.below i id g (old at_i)
  · intro id g announced
    rw [next]
    obtain before | now := List.mem_append.1 announced
    · exact accounted.heard id g before
    · exact (heard id g (List.mem_singleton.1 now).symm).1
  · intro i j id g g' at_i at_j before
    exact accounted.ordered i j id g g' (old at_i) (old at_j) before
  · intro i id g s latest
    exact present i id g s (latest.of_snoc (noCreation id))
  · intro i id g latest
    exact absent i id g (latest.of_snoc (noCreation id))
  · intro i j id g g' at_i at_j before announced
    obtain past | now := List.mem_append.1 announced
    · obtain ⟨d, later, at_d, first⟩ :=
        accounted.superseded i j id g g' (old at_i) (old at_j) before past
      refine ⟨d, later, getElem?_snoc.2 (.inl at_d), ?_⟩
      intro n g'' at_n
      exact first n g'' (old at_n)
    · -- The successor is younger, so the object cannot be announced any more.
      have younger := accounted.ordered i j id g g' (old at_i) (old at_j) before
      have notYounger := (heard id g (List.mem_singleton.1 now).symm).2 j g' (old at_j)
      exact absurd younger (Nat.not_lt_of_le notYounger)

/-- The compositor hears of an object. -/
theorem Accounted.announced {s : Standing} (accounted : Accounted h t)
    (found : t.standing? id = some s) (old : s.generation < t.nextGeneration)
    (next : t'.nextGeneration = t.nextGeneration)
    (lookup : ∀ x, t'.standing? x =
      if x = id then some { s with announced := true } else t.standing? x) :
    Accounted (h ++ [.announced id s.generation]) t' := by
  refine accounted.extend next nofun ?_ ?_ ?_
  · rintro x g ⟨⟩
    refine ⟨old, ?_⟩
    intro j g' at_j
    obtain ⟨i, g'', upper, latest⟩ := exists_latest at_j
    obtain ⟨generation, _⟩ := accounted.present i id g'' s latest found
    rw [generation]
    rcases Nat.lt_or_eq_of_le upper with before | rfl
    · exact Nat.le_of_lt (accounted.ordered j i id g' g'' at_j latest.created before)
    · have same := at_j.symm.trans latest.created
      cases same
      exact Nat.le_refl _
  · intro i x g s' latest found'
    rw [lookup] at found'
    split at found'
    next isHeard =>
      subst isHeard
      cases found'
      obtain ⟨generation, _, deleted⟩ := accounted.present i x g s latest found
      exact ⟨generation, fun _ => rfl, fun flag => (deleted flag).snoc⟩
    next other =>
      exact accounted.present_snoc latest found' (by rintro ⟨⟩; exact other rfl)
  · intro i x g latest gone announced
    rw [lookup] at gone
    split at gone
    · cases gone
    next other =>
      exact accounted.absent_snoc latest gone (by rintro ⟨⟩; exact other rfl) announced

/-- The compositor lets go of a number. -/
theorem Accounted.deleted (accounted : Accounted h t)
    (next : t'.nextGeneration = t.nextGeneration)
    (others : ∀ x, x ≠ id → t'.standing? x = t.standing? x)
    (kept : ∀ s', t'.standing? id = some s' → ∃ s, t.standing? id = some s ∧
      s'.generation = s.generation ∧ s'.announced = s.announced) :
    Accounted (h ++ [.deleted id]) t' := by
  have now (i : Nat) (inside : i < h.length) : DeletedAfter (h ++ [.deleted id]) i id :=
    ⟨h.length, inside, by simp⟩
  refine accounted.extend next nofun nofun ?_ ?_
  · intro i x g s' latest found
    by_cases isDeleted : x = id
    · subst isDeleted
      obtain ⟨s, found', generation, flag⟩ := kept s' found
      obtain ⟨same, remembered, _⟩ := accounted.present i x g s latest found'
      refine ⟨generation.trans same, ?_, fun _ => now i (lt_of_getElem? latest.created)⟩
      intro announced
      rw [flag]
      exact remembered (by simpa using announced)
    · rw [others x isDeleted] at found
      exact accounted.present_snoc latest found nofun
  · intro i x g latest gone announced
    by_cases isDeleted : x = id
    · subst isDeleted
      exact now i (lt_of_getElem? latest.created)
    · rw [others x isDeleted] at gone
      exact accounted.absent_snoc latest gone nofun announced

/-! ## Operations -/

theorem ObjectTable.standing?_of_insert {entry : Entry δ}
    (entries : t'.entries = t.entries.insert id entry) (x : ObjectId) :
    t'.standing? x =
      if x = id then some ⟨entry.generation, entry.announced, entry.idDeleted⟩
      else t.standing? x := by
  simp only [standing?, get?_of_insert entries]
  split <;> rfl

theorem ObjectTable.standing?_put {entry : Entry δ} (x : ObjectId) :
    (t.put id entry).standing? x =
      if x = id then some ⟨entry.generation, entry.announced, entry.idDeleted⟩
      else t.standing? x :=
  standing?_of_insert rfl x

theorem ObjectTable.standing?_remove (x : ObjectId) :
    (t.remove id).standing? x = if x = id then none else t.standing? x := by
  simp only [standing?, get?_remove]
  split <;> rfl

/-- An entry is replaced by one with the same standing. -/
theorem Accounted.put {entry entry' : Entry δ} (accounted : Accounted h t)
    (found : t.get? id = some entry) (generation : entry'.generation = entry.generation)
    (announced : entry'.announced = entry.announced)
    (idDeleted : entry'.idDeleted = entry.idDeleted) : Accounted h (t.put id entry') := by
  refine accounted.quiet (Nat.le_refl _) ?_
  intro x _
  left
  rw [ObjectTable.standing?_put]
  split
  next same =>
    subst same
    simp [ObjectTable.standing?, found, generation, announced, idDeleted]
  · rfl

theorem Accounted.release (accounted : Accounted h t) (generation : Generation) :
    Accounted h (t.release id generation).value := by
  obtain same | ⟨_, entry, found, _, _, ⟨_, _, _, value⟩ | ⟨allowed, value⟩⟩ :=
    ObjectTable.release_cases t id generation
  · rw [same]
    exact accounted
  · rw [value]
    exact accounted.put found rfl rfl rfl
  · rw [value]
    refine accounted.quiet (Nat.le_refl _) ?_
    intro x client
    rw [ObjectTable.standing?_remove]
    split
    next same =>
      subst same
      -- The entry may go: its object was never announced, or its number was let go already.
      refine .inr ⟨rfl, ?_⟩
      intro s standing flag
      simp only [ObjectTable.standing?, found, Option.map_some, Option.some.injEq] at standing
      subst standing
      exact allowed client flag
    · exact .inl rfl

theorem Accounted.deleteId (accounted : Accounted h t) :
    Accounted (h ++ [.deleted id]) (t.deleteId id).value := by
  obtain ⟨unused, value⟩ | ⟨entry, found, _, value⟩ | ⟨entry, found, _, value⟩ :=
    ObjectTable.deleteId_cases t id
  · rw [value]
    exact accounted.deleted rfl (fun _ _ => rfl) fun s found => ⟨s, found, rfl, rfl⟩
  · rw [value]
    refine accounted.deleted rfl ?_ ?_
    · intro x other
      rw [ObjectTable.standing?_remove, if_neg other]
    · intro s standing
      rw [ObjectTable.standing?_remove, if_pos rfl] at standing
      cases standing
  · rw [value]
    refine accounted.deleted rfl ?_ ?_
    · intro x other
      rw [ObjectTable.standing?_put, if_neg other]
    · intro s standing
      rw [ObjectTable.standing?_put, if_pos rfl] at standing
      cases standing
      exact ⟨⟨entry.generation, entry.announced, entry.idDeleted⟩,
        by simp [ObjectTable.standing?, found], rfl, rfl⟩

theorem Accounted.markAnnounced (accounted : Accounted h t) (sound : t.Sound) :
    Accounted (h ++ (t.announcement id).toList) (t.markAnnounced id) := by
  cases found : t.get? id with
  | none =>
    have silent : t.announcement id = none := by simp [ObjectTable.announcement, found]
    rw [silent, Option.toList_none, List.append_nil]
    refine accounted.quiet (Nat.le_refl _) ?_
    intro x _
    left
    simp only [ObjectTable.standing?, ObjectTable.get?_markAnnounced]
    split
    next same => simp [same, found]
    · rfl
  | some entry =>
    have heard : t.announcement id = some (.announced id entry.generation) := by
      simp [ObjectTable.announcement, found]
    have standing : t.standing? id =
        some ⟨entry.generation, entry.announced, entry.idDeleted⟩ := by
      simp [ObjectTable.standing?, found]
    rw [heard]
    refine accounted.announced standing (sound.below id entry found) rfl ?_
    intro x
    simp only [ObjectTable.standing?, ObjectTable.get?_markAnnounced]
    split
    next same => simp [same, found]
    · rfl

theorem Accounted.apply (accounted : Accounted h t) (sound : t.Sound) (op : ObjectTable.Op δ) :
    Accounted (h ++ op.happenings t) (op.apply t) := by
  cases op with
  | insertClient interface version queue =>
    simp only [ObjectTable.Op.happenings, ObjectTable.Op.apply]
    cases inserted : t.insertClient interface version queue with
    | error cause => simpa using accounted
    | ok result =>
      obtain ⟨id, generation, t'⟩ := result
      obtain ⟨client, _, unused, _⟩ := sound.insertClient inserted
      obtain ⟨ids, _, rfl, rfl⟩ := ObjectTable.insertClient_ok inserted
      have free : t.standing? id = none := by simp [ObjectTable.standing?, unused]
      refine accounted.created client free rfl ?_
      intro x
      rw [ObjectTable.standing?_of_insert (t := t) rfl]
  | insertServer id interface version queue =>
    simp only [ObjectTable.Op.happenings, ObjectTable.Op.apply, List.append_nil]
    cases inserted : t.insertServer id interface version queue with
    | error cause => exact accounted
    | ok t' =>
      obtain ⟨foreign, _, rfl⟩ := ObjectTable.insertServer_ok inserted
      -- The compositor chose the number, so the history does not have it.
      refine accounted.quiet (Nat.le_succ _) ?_
      intro x client
      have other : x ≠ id := by
        rintro rfl
        rw [foreign] at client
        cases client
      left
      rw [ObjectTable.standing?_of_insert (t := t) rfl, if_neg other]
  | markAnnounced id => exact accounted.markAnnounced sound
  | release id generation =>
    simp only [ObjectTable.Op.happenings, List.append_nil]
    exact accounted.release generation
  | deleteId id => exact accounted.deleteId
  | reassignQueue old new =>
    simp only [ObjectTable.Op.happenings, List.append_nil]
    refine accounted.quiet (Nat.le_refl _) ?_
    intro x _
    left
    simp only [ObjectTable.Op.apply, ObjectTable.standing?, ObjectTable.get?_reassignQueue,
      Option.map_map]
    congr 1
    funext entry
    simp only [Function.comp_apply]
    split <;> rfl
  | amend id generation data owned queue =>
    simp only [ObjectTable.Op.happenings, ObjectTable.Op.apply, List.append_nil]
    split
    next entry current =>
      exact accounted.put (ObjectTable.current?_some.1 current).1 rfl rfl rfl
    · exact accounted

theorem Accounted.reaches {future : List Happening} (accounted : Accounted h t) (sound : t.Sound)
    (reaches : t.Reaches t' future) : Accounted (h ++ future) t' := by
  obtain ⟨ops, rfl, rfl⟩ := reaches
  induction ops generalizing h t with
  | nil => simpa [ObjectTable.history, ObjectTable.applyAll] using accounted
  | cons op ops ih =>
    have rest := ih (accounted.apply sound op) (sound.apply op)
    rw [List.append_assoc] at rest
    exact rest

end

/-! ## Runs -/

/-- What happened to numbers in a run of a new connection. -/
def numberHistory (protocol : Protocol) (actions : List (Action δ)) : List Happening :=
  ((Connection.initial protocol).trace actions).flatMap Step.happenings

/-- As long as the connection is open the history belongs to its table; after that it does not
    change any more. -/
theorem accounted_step (past : List Happening) (c : Connection δ) (action : Action δ)
    (kept : ∃ t, Accounted past t ∧ (c.closed = true ∨ t = c.objects ∧ t.Sound)) :
    ∃ t, Accounted (past ++ (c.step action).happenings) t ∧
      ((c.step action).after.closed = true ∨ t = (c.step action).after.objects ∧ t.Sound) := by
  obtain ⟨t, accounted, closed | ⟨rfl, sound⟩⟩ := kept
  · obtain ⟨closed', nothing⟩ := (c.step_effect action).of_closed closed
    refine ⟨t, ?_, .inl closed'⟩
    rw [nothing, List.append_nil]
    exact accounted
  · obtain ⟨closed', nothing⟩ | reaches := (c.step_effect action).reaches
    · refine ⟨c.objects, ?_, .inl closed'⟩
      rw [nothing, List.append_nil]
      exact accounted
    · exact ⟨_, accounted.reaches sound reaches, .inr ⟨rfl, reaches.sound sound⟩⟩

theorem accounted_table (protocol : Protocol) (actions : List (Action δ)) :
    ∃ t, Accounted (numberHistory protocol actions) t ∧
      (((Connection.initial protocol).run actions).closed = true ∨
        t = ((Connection.initial protocol).run actions).objects ∧ t.Sound) :=
  Connection.trace_invariant (c := Connection.initial protocol) accounted_step actions
    ⟨_, accounted_nil _, .inr ⟨rfl, ObjectTable.initial_sound⟩⟩

theorem accounted_run (protocol : Protocol) (actions : List (Action δ)) :
    ∃ t : ObjectTable δ, Accounted (numberHistory protocol actions) t := by
  obtain ⟨t, accounted, _⟩ := accounted_table protocol actions
  exact ⟨t, accounted⟩

theorem accounted_open {protocol : Protocol} {actions : List (Action δ)}
    (isOpen : ((Connection.initial protocol).run actions).closed = false) :
    Accounted (numberHistory protocol actions)
        ((Connection.initial protocol).run actions).objects ∧
      ((Connection.initial protocol).run actions).objects.Sound := by
  obtain ⟨t, accounted, closed | ⟨rfl, sound⟩⟩ := accounted_table protocol actions
  · rw [isOpen] at closed
    cases closed
  · exact ⟨accounted, sound⟩

/-- The object created at time `i` was announced, and its number was given to another object at
    time `j`. -/
def Reallocated (h : List Happening) (id : ObjectId) (i j : Nat) : Prop :=
  ∃ (g g' : Generation) (a : Nat),
    h[i]? = some (.created id g) ∧ h[a]? = some (.announced id g) ∧
    h[j]? = some (.created id g') ∧ i < j

/-- In every run, the number of an object that the compositor has heard of is given to another
    object only after the compositor has let go of it.  That happens after the object got the
    number and before any other does, and it counts for this object alone. -/
theorem reallocated_after_delete (protocol : Protocol) (actions : List (Action δ)) :
    ∃ account : Nat → Nat,
      (∀ id i j, Reallocated (numberHistory protocol actions) id i j →
        i < account i ∧ account i < j ∧
          (numberHistory protocol actions)[account i]? = some (.deleted id)) ∧
      ∀ id id' i i' j j', Reallocated (numberHistory protocol actions) id i j →
        Reallocated (numberHistory protocol actions) id' i' j' → account i = account i' →
          i = i' := by
  obtain ⟨t, accounted⟩ := accounted_run protocol actions
  generalize numberHistory protocol actions = h at accounted
  have released (i : Nat) : ∃ d, ∀ id j, Reallocated h id i j →
      i < d ∧ d < j ∧ h[d]? = some (.deleted id) := by
    by_cases given : ∃ id j, Reallocated h id i j
    · obtain ⟨id, j, g, g', a, at_i, at_a, at_j, before⟩ := given
      obtain ⟨d, later, at_d, first⟩ := accounted.superseded i j id g g' at_i at_j before
        (List.mem_of_getElem? at_a)
      refine ⟨d, ?_⟩
      rintro id' j' ⟨_, g'', _, at_i', _, at_j', before'⟩
      have same := at_i.symm.trans at_i'
      cases same
      exact ⟨later, first j' g'' at_j' before', at_d⟩
    · exact ⟨0, fun id j reallocated => absurd ⟨id, j, reallocated⟩ given⟩
  obtain ⟨account, accounts⟩ := Classical.skolem.1 released
  refine ⟨account, fun id i j => accounts i id j, ?_⟩
  intro id id' i i' j j' one two same
  obtain ⟨after, _, deleted⟩ := accounts i id j one
  obtain ⟨after', _, deleted'⟩ := accounts i' id' j' two
  rw [same, deleted'] at deleted
  cases deleted
  obtain ⟨g, _, a, at_i, at_a, _, _⟩ := one
  obtain ⟨g', _, a', at_i', at_a', _, _⟩ := two
  -- Of two objects with one number, the older was let go before the younger was created.
  rcases Nat.lt_trichotomy i i' with older | rfl | younger
  · have before := (accounts i id i' ⟨g, g', a, at_i, at_a, at_i', older⟩).2.1
    omega
  · rfl
  · have before := (accounts i' id i ⟨g', g, a', at_i', at_a', at_i, younger⟩).2.1
    omega

/-- A registry is announced and destroyed, the compositor lets go of its number, and another
    registry gets it. -/
def twoRegistries : List (Action Unit) :=
  let display : ObjectRef := ⟨displayId, 0, Protocol.Core.display, 1⟩
  [ .create display Protocol.Core.registry 1
  , .request display Protocol.Core.getRegistryRequest [.newId 2] false []
  , .release ⟨2, 1, Protocol.Core.registry, 1⟩
  , .prepareRead QueueId.default
  , .read [.received [1, 0, 0, 0, 1, 0, 12, 0, 2, 0, 0, 0] []]
  , .create display Protocol.Core.registry 1 ]

theorem reallocated_after_delete_registry :
    Reallocated (numberHistory ⟨Protocol.Core.tables⟩ twoRegistries) 2 0 3 ∧
      ∃ d, 0 < d ∧ d < 3 ∧
        (numberHistory ⟨Protocol.Core.tables⟩ twoRegistries)[d]? = some (.deleted 2) := by
  have history : numberHistory ⟨Protocol.Core.tables⟩ twoRegistries =
      [.created 2 1, .announced 2 1, .deleted 2, .created 2 2] := by decide +kernel
  have reallocated : Reallocated (numberHistory ⟨Protocol.Core.tables⟩ twoRegistries) 2 0 3 := by
    rw [history]
    exact ⟨1, 2, 1, rfl, rfl, rfl, by decide⟩
  obtain ⟨account, accounts, _⟩ :=
    reallocated_after_delete ⟨Protocol.Core.tables⟩ twoRegistries
  exact ⟨reallocated, account 0, accounts 2 0 3 reallocated⟩

end Wayland.Client
