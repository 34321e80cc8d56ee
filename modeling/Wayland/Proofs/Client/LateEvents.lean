import Wayland.Proofs.Client.Lineage
import Wayland.Proofs.Client.NumberReuse
import Wayland.Proofs.Client.Stream

/-! # Events that come too late

The compositor may send events of an object that the client has already released.  Such an event
is delivered to nobody.  What becomes of the descriptors that came with it depends on the object.
An object of the client is still in the table as a zombie, so the number of descriptors is known
and they are thrown away.  An object of the compositor is forgotten when it is released; the
descriptors of its late events stay, and the next event takes them for its own.
-/

namespace Wayland.Client

variable {δ : Type}

/-! ## Objects of the client -/

/-- The compositor has heard of the object and has not let go of its number since it was
    created. -/
def Awaited (h : List Happening) (id : ObjectId) (generation : Generation) : Prop :=
  Happening.announced id generation ∈ h ∧
    Happening.deleted id ∉ h.dropWhile fun x => x ≠ .created id generation

instance (h : List Happening) (id : ObjectId) (generation : Generation) :
    Decidable (Awaited h id generation) :=
  inferInstanceAs (Decidable (_ ∧ _))

theorem mem_dropWhile_of_lt {h : List Happening} {x y : Happening} {i d : Nat}
    (at_i : h[i]? = some x) (at_d : h[d]? = some y) (later : i < d) :
    y ∈ h.dropWhile fun z => z ≠ x := by
  induction h generalizing i d with
  | nil => simp at at_i
  | cons z h ih =>
    by_cases same : z = x
    · simpa [List.dropWhile, same] using List.mem_of_getElem? at_d
    · cases i with
      | zero => simp [same] at at_i
      | succ i =>
        cases d with
        | zero => omega
        | succ d => simpa [List.dropWhile, same] using ih at_i at_d (by omega)

theorem Awaited.not_deletedAfter {h : List Happening} {id : ObjectId} {generation : Generation}
    {i : Nat} (awaited : Awaited h id generation)
    (created : h[i]? = some (.created id generation)) :
    ¬ DeletedAfter h i id := by
  rintro ⟨d, later, deleted⟩
  exact awaited.2 (mem_dropWhile_of_lt created deleted later)

theorem created_run (protocol : Protocol) (actions : List (Action δ)) :
    ∀ id entry, ObjectId.isClient id = true → id ≠ displayId →
      ((Connection.initial protocol).run actions).objects.get? id = some entry →
        Happening.created id entry.generation ∈ numberHistory protocol actions := by
  refine Connection.history_invariant (I := fun past c => ∀ id entry,
    ObjectId.isClient id = true → id ≠ displayId → c.objects.get? id = some entry →
      Happening.created id entry.generation ∈ past.flatMap Step.happenings) ?_ actions ?_
  · intro past c action ih id entry' client other found
    rw [List.flatMap_append, List.flatMap_singleton, List.mem_append]
    obtain ⟨entry, found, continues⟩ | ⟨_, _, entered, _⟩ :=
      (c.step_effect action).carries.origin id entry' found
    · rw [continues.generation]
      exact .inl (ih id entry client other found)
    · -- Messages create objects under numbers of the compositor's only.
      obtain ⟨foreign, _⟩ | ⟨factory, version, o, isCreate, given, rfl, same⟩ := entered
      · rw [foreign] at client
        cases client
      · right
        simp [Step.happenings, isCreate, given, same]
  · intro id entry _ other found
    simp [Connection.initial, ObjectTable.get?_initial, other] at found

/-- An object that the compositor may still send events of is a zombie once it is released. -/
theorem zombie_of_awaited {h : List Happening} {t : ObjectTable δ} {id : ObjectId}
    {generation : Generation} (accounted : Accounted h t)
    (created : Happening.created id generation ∈ h) (awaited : Awaited h id generation)
    (released : t.live? id = none) :
    ∃ entry, t.get? id = some entry ∧ entry.generation = generation ∧ entry.life = .zombie := by
  obtain ⟨i, at_i⟩ := List.mem_iff_getElem?.1 created
  have busy := awaited.not_deletedAfter at_i
  have latest : Latest h i id generation := by
    refine ⟨at_i, fun j g' at_j => Nat.not_lt.1 fun later => ?_⟩
    -- A successor would have waited for the number.
    obtain ⟨d, after, deleted, _⟩ :=
      accounted.superseded i j id generation g' at_i at_j later awaited.1
    exact busy ⟨d, after, deleted⟩
  cases found : t.get? id with
  | none =>
    have absent : t.standing? id = none := by simp [ObjectTable.standing?, found]
    exact absurd (accounted.absent i id generation latest absent awaited.1) busy
  | some entry =>
    have present : t.standing? id =
        some ⟨entry.generation, entry.announced, entry.idDeleted⟩ := by
      simp [ObjectTable.standing?, found]
    refine ⟨entry, rfl, (accounted.present i id generation _ latest present).1, ?_⟩
    cases life : entry.life with
    | zombie => rfl
    | live => simp [ObjectTable.live?, found, life] at released

/-! ## What a late event finds -/

section

variable {protocol : Protocol} {past future : List (Action δ)} {id : ObjectId}
  {generation : Generation} {entry : Entry δ}

/-- A number of the client's that is awaited still has the table of its object. -/
theorem late_zombie
    (known : ((Connection.initial protocol).run past).objects.current? id generation = some entry)
    (isOpen : ((Connection.initial protocol).run (past ++ future)).closed = false)
    (released : ((Connection.initial protocol).run (past ++ future)).objects.live? id = none)
    (client : ObjectId.isClient id = true) (other : id ≠ displayId)
    (awaited : Awaited (numberHistory protocol (past ++ future)) id generation) :
    ∃ remnant, ((Connection.initial protocol).run (past ++ future)).objects.get? id = some remnant ∧
      remnant.life = .zombie ∧ remnant.interface = entry.interface := by
  obtain ⟨found, _, rfl⟩ := ObjectTable.current?_some.1 known
  have created :
      Happening.created id entry.generation ∈ numberHistory protocol (past ++ future) := by
    simp only [numberHistory, Connection.trace_append, List.flatMap_append, List.mem_append]
    exact .inl (created_run protocol past id entry client other found)
  obtain ⟨remnant, found', same, dead⟩ :=
    zombie_of_awaited (accounted_open isOpen).1 created awaited released
  refine ⟨remnant, found', dead, ?_⟩
  -- A number with the same generation is the same object, and objects keep their tables.
  have below : ((Connection.initial protocol).run past).objects.Below :=
    ((Connection.initial protocol).run_precedes past).below (Connection.initial_below protocol)
  have later := ((Connection.initial protocol).run past).run_precedes future
  rw [← Connection.run_append] at later
  exact (later.same below found found' same).interface

/-- Of an object of the compositor that is released nothing is left. -/
theorem ObjectTable.Sound.get?_of_foreign {t : ObjectTable δ} (sound : t.Sound)
    (foreign : ObjectId.isClient id = false) (released : t.live? id = none) :
    t.get? id = none := by
  cases found : t.get? id with
  | none => rfl
  | some entry =>
    cases life : entry.life with
    | live => simp [ObjectTable.live?, found, life] at released
    | zombie =>
      have client := (sound.zombie id entry found life).client
      rw [foreign] at client
      cases client

end

theorem ObjectTable.Sound.ne_display {t : ObjectTable δ} {id : ObjectId} (sound : t.Sound)
    (released : t.live? id = none) : id ≠ displayId := by
  rintro rfl
  obtain ⟨display, found, live, _⟩ := sound.display
  simp [ObjectTable.live?, found, live] at released

/-- If a message only changes which descriptors are left, it could as well not have come, with
    these descriptors left. -/
theorem Connection.absorb_encode {c : Connection δ} {object : ObjectId} {opcode : UInt16}
    {args : List Argument} {bytes : Wire.Bytes} {fds left : List Fd}
    (small : Message.size args ≤ Wire.maxMessageSize)
    (handled : Handles (c.withInbox bytes fds) ⟨object, opcode, UInt16.ofNat (Message.size args)⟩
      (args.flatMap Argument.encode) none (c.withInbox bytes left)) :
    (c.withInbox ((Message.encode object opcode args).bytes ++ bytes) fds).absorb.value =
      (c.withInbox bytes left).absorb.value :=
  absorbs_iff.1 (.message (Front.of_encode object opcode small bytes) handled (absorb_absorbs _))

/-- In every run: an object that was once known has been released, and if it was the client's, the
    compositor has not yet let go of its number.  An event of the object that comes now is
    delivered to nobody and creates nothing: the client goes on as if only what follows had come.
    The descriptors of the event are taken away if the number is the client's.  Otherwise they are
    still there for the events that follow, which get their own only if there were none. -/
theorem late_event_descriptors (protocol : Protocol) (past future : List (Action δ))
    (id : ObjectId) (generation : Generation) (entry : Entry δ)
    (known : ((Connection.initial protocol).run past).objects.current? id generation = some entry)
    (isOpen : ((Connection.initial protocol).run (past ++ future)).closed = false)
    (released : ((Connection.initial protocol).run (past ++ future)).objects.live? id = none)
    (awaited : ObjectId.isClient id = true →
      Awaited (numberHistory protocol (past ++ future)) id generation)
    (opcode : UInt16) (spec : MessageSpec) (args : List Argument) (packet : Message.Packet)
    (event : entry.interface.event? opcode = some spec)
    (written : Message.marshal id opcode spec args = .ok packet)
    (bytes : Wire.Bytes) (fds : List Fd) :
    let c := (Connection.initial protocol).run (past ++ future)
    let left := if ObjectId.isClient id then fds else packet.fds ++ fds
    packet.fds.length = Connection.swallowedFds spec ∧
    (c.withInbox (packet.bytes ++ bytes) (packet.fds ++ fds)).absorb.value =
      (c.withInbox bytes left).absorb.value ∧
    (left = fds ↔ ObjectId.isClient id = true ∨ Connection.swallowedFds spec = 0) := by
  intro c left
  obtain ⟨accepted, small, rfl⟩ := Message.marshal_ok_iff.1 written
  have sound := (accounted_open isOpen).2
  have other := sound.ne_display released
  have count : (Message.encode id opcode args).fds.length = Connection.swallowedFds spec :=
    (Connection.swallowedFds_of_check accepted).symm
  refine ⟨count, ?_, ?_⟩
  · apply Connection.absorb_encode small
    by_cases client : ObjectId.isClient id = true
    · obtain ⟨remnant, found, dead, same⟩ :=
        late_zombie known isOpen released client other (awaited client)
      rw [← same] at event
      simp only [left, client]
      exact Connection.handles_zombie other found event dead accepted bytes fds
    · -- Nothing is left that could tell how many descriptors the event has.
      have absent := sound.get?_of_foreign (Bool.eq_false_iff.2 client) released
      simp only [left, client]
      exact .unknown other absent
  · rw [← count]
    by_cases client : ObjectId.isClient id = true <;> simp [left, client]

/-- A seat makes keyboards, and has an event with two descriptors. -/
def seat : Interface :=
  ⟨"seat", 1, [], [⟨"keyboard", "n", [some 1]⟩, ⟨"pair", "hh", [none, none]⟩]⟩

/-- The event of a keyboard has one descriptor. -/
def keyboard : Interface := ⟨"keyboard", 1, [], [⟨"keymap", "h", [none]⟩]⟩

/-- There are two keyboards, one made by the client and one by the compositor. -/
def keyboardsMade : List (Action String) :=
  let display : ObjectRef := ⟨displayId, 0, Protocol.Core.display, 1⟩
  let made : Incoming := .event 2 0 [.newId 0xff000000]
  [.create display seat 1, .attach ⟨2, 1, seat, 1⟩ seat 2 "seat",
    .request display 1 [.newId 2] false [],
    .create display keyboard 1, .request display 1 [.newId 3] false [],
    .prepareRead QueueId.default, .read [.received made.packet.bytes [], .wouldBlock],
    .next QueueId.default]

def keyboardsReleased : List (Action String) :=
  [.release ⟨3, 2, keyboard, 1⟩, .adopt 0xff000000 keyboard,
    .release ⟨0xff000000, 3, keyboard, 1⟩]

/-- A keymap with descriptor 7 comes too late, and then a pair of 8 and 9.  If the keyboard was
    made by the client, the pair is received as it was sent.  If it was made by the compositor, 7
    and 8 are received. -/
theorem late_event_descriptors_shifted :
    let c := (Connection.initial ⟨[seat, keyboard]⟩).run (keyboardsMade ++ keyboardsReleased)
    let keymap (id : ObjectId) := Message.encode id 0 [.fd ⟨7⟩]
    let pair := Message.encode 2 1 [.fd ⟨8⟩, .fd ⟨9⟩]
    let received (id : ObjectId) := (c.withInbox ((keymap id).bytes ++ pair.bytes)
      ((keymap id).fds ++ pair.fds)).absorb.value.queues.get? QueueId.default
    received 3 = some [⟨2, 1, 1, [.fd ⟨8⟩, .fd ⟨9⟩]⟩] ∧
    received 0xff000000 = some [⟨2, 1, 1, [.fd ⟨7⟩, .fd ⟨8⟩]⟩] := by
  intro c keymap pair received
  have written (id : ObjectId) :
      Message.marshal id 0 ⟨"keymap", "h", [none]⟩ [.fd ⟨7⟩] = .ok (keymap id) :=
    Message.marshal_ok_iff.2 ⟨rfl, by decide +kernel, rfl⟩
  -- The two keyboards differ only in their numbers.
  have late (id : ObjectId) (generation : Generation)
      (shown : (((Connection.initial ⟨[seat, keyboard]⟩).run keyboardsMade).objects.current? id
        generation).map (·.interface) = some keyboard)
      (released : (c.objects.live? id).isNone = true)
      (awaited : ObjectId.isClient id = true →
        Awaited (numberHistory ⟨[seat, keyboard]⟩ (keyboardsMade ++ keyboardsReleased)) id
          generation) :
      received id = (c.withInbox pair.bytes (if ObjectId.isClient id then pair.fds
        else (keymap id).fds ++ pair.fds)).absorb.value.queues.get? QueueId.default := by
    obtain ⟨entry, known, interface⟩ := Option.map_eq_some_iff.1 shown
    obtain ⟨_, same, _⟩ := late_event_descriptors ⟨[seat, keyboard]⟩ keyboardsMade
      keyboardsReleased id generation entry known (by decide +kernel)
      (Option.isNone_iff_eq_none.1 released) awaited 0 _ [.fd ⟨7⟩] (keymap id)
      (by rw [interface]; rfl) (written id) pair.bytes pair.fds
    exact congrArg (·.queues.get? QueueId.default) same
  refine ⟨(late 3 2 ?_ ?_ ?_).trans ?_, (late 0xff000000 3 ?_ ?_ ?_).trans ?_⟩
  all_goals decide +kernel

end Wayland.Client
