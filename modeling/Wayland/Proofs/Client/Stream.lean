import Wayland.Proofs.Client.Queues

/-! # A stream of messages and what it brings about

`Incoming` is a message as the compositor means it.  From the table of objects alone one can say
what a message will do: which event it adds to which queue (`arrival?`), which objects it creates
(`creations`), and how it changes the table (`apply`).  A message changes the table that decides
what the next one does, so for a list of messages all this is said one message after the other.

`absorb_stream` says that a client that finds the bytes and the descriptors of all messages in its
inbox does exactly that.  Both kinds of bookkeeping with descriptors have to agree for this: the
event of a live object takes them argument by argument, the event of a zombie all at once, as many
as its signature has.

Of the display only `delete_id` counts as a message here.  Its other event reports an error and is
meant to end the connection.
-/

namespace Wayland

/-! ## The bytes and the descriptors of one message -/

namespace Message

theorem check_of_marshal {object : ObjectId} {opcode : UInt16} {spec : MessageSpec}
    {args : List Argument} {packet : Packet}
    (written : (marshal object opcode spec args).toOption = some packet) :
    check spec args = .ok () ∧ size args ≤ Wire.maxMessageSize := by
  cases result : marshal object opcode spec args with
  | error cause => simp [result, Except.toOption] at written
  | ok packet =>
    obtain ⟨accepted, small, _⟩ := marshal_ok_iff.1 result
    exact ⟨accepted, small⟩

end Message

namespace Client

theorem Front.of_encode (object : ObjectId) (opcode : UInt16) {args : List Argument}
    (small : Message.size args ≤ Wire.maxMessageSize) (rest : Wire.Bytes) :
    Front.of ((Message.encode object opcode args).bytes ++ rest) =
      .message ⟨object, opcode, UInt16.ofNat (Message.size args)⟩ (args.flatMap Argument.encode)
        rest := by
  have length := Message.length_encode_bytes object opcode args
  have aligned := Message.sizes_mod args
  have size := Message.size_eq args
  have exact_size : (UInt16.ofNat (Message.size args)).toNat = Message.size args := by
    rw [UInt16.toNat_ofNat_of_lt']
    unfold Wire.maxMessageSize at small
    show Message.size args < 65536
    omega
  refine Front.of_message.2 ⟨?_, ?_, ?_, ?_, ?_, ?_⟩
  · simp only [Message.encode, List.append_assoc]
    exact Wire.readHeader_header _ _
  · show 8 ≤ (UInt16.ofNat (Message.size args)).toNat
    omega
  · show (UInt16.ofNat (Message.size args)).toNat % 4 = 0
    omega
  · show (UInt16.ofNat (Message.size args)).toNat ≤ _
    rw [List.length_append]
    omega
  · show _ = (List.take (UInt16.ofNat (Message.size args)).toNat _).drop 8
    rw [exact_size, ← length, List.take_left, Message.encode_drop_header]
  · show _ = List.drop (UInt16.ofNat (Message.size args)).toNat _
    rw [exact_size, ← length, List.drop_left]

variable {δ : Type}

theorem sizes_uint (n : UInt32) : Message.sizes [.uint n] = 4 := by
  simp [Message.sizes, Argument.size, Argument.value?, Wire.Value.size, Wire.Value.contentLength,
    Wire.padded]

theorem Connection.swallowedFds_of_check {spec : MessageSpec} {args : List Argument}
    (accepted : Message.check spec args = .ok ()) :
    swallowedFds spec = (args.filterMap Argument.fd?).length := by
  obtain ⟨sig, parsed, sameLength, each⟩ := Message.check_ok accepted
  rw [Message.length_filterMap_fd sameLength each]
  simp only [swallowedFds, parsed]
  rfl

/-! ## What messages bring about -/

/-- A message of the compositor. -/
inductive Incoming
  | deleteId (id : ObjectId)
  | event (object : ObjectId) (opcode : UInt16) (args : List Argument)

/-- An object that an event creates. -/
structure Creation where
  id : ObjectId
  interface : Interface
  version : UInt32
  queue : QueueId

/-- The objects that the arguments of an event create, if they are numbered from `index` on: one
    for each number of a new object for which there is a table. -/
def creationsFrom (protocol : Protocol) (sender : Entry δ) (spec : MessageSpec) (index : Nat)
    (args : List Argument) : List Creation :=
  (args.zipIdx index).filterMap fun (arg, index) => do
    let id ← arg.newId?
    let interface ← protocol.argInterface? spec index
    return { id, interface, version := sender.version, queue := sender.queue }

/-- What the table says about an object of the compositor that nobody owns yet. -/
def Creation.entry (new : Creation) (generation : Generation) : Entry δ :=
  { interface := new.interface, version := new.version, queue := new.queue, generation
    data := none, owned := false, life := .live, announced := true, idDeleted := false }

/-- The table with a new object of the compositor. -/
def ObjectTable.enter (t : ObjectTable δ) (new : Creation) : ObjectTable δ :=
  { t with
    entries := t.entries.insert new.id (new.entry t.nextGeneration)
    nextGeneration := t.nextGeneration + 1 }

namespace Incoming

/-- The bytes and the descriptors of a message. -/
def packet : Incoming → Message.Packet
  | .deleteId id => Message.encode displayId Protocol.Core.deleteIdEvent [.uint id]
  | .event object opcode args => Message.encode object opcode args

/-- The objects that a message creates.  Zombies create nothing. -/
def creations (protocol : Protocol) (t : ObjectTable δ) : Incoming → List Creation
  | .deleteId _ => []
  | .event object opcode args =>
    match t.live? object with
    | none => []
    | some sender =>
      match sender.interface.event? opcode with
      | none => []
      | some spec => creationsFrom protocol sender spec 0 args

/-- The event that a message adds to a queue. -/
def arrival? (t : ObjectTable δ) : Incoming → Option (QueueId × QueuedEvent)
  | .deleteId _ => none
  | .event object opcode args =>
    (t.live? object).map fun sender =>
      (sender.queue, { sender := object, generation := sender.generation, opcode
                       args := args.map Argument.received })

/-- The table after a message. -/
def apply (protocol : Protocol) (t : ObjectTable δ) : Incoming → ObjectTable δ
  | .deleteId id => (t.deleteId id).value
  | .event object opcode args =>
    ((event object opcode args).creations protocol t).foldl ObjectTable.enter t

/-- A message that the compositor may send: `delete_id`, or an event of an object that is or was in
    use, written as its table says.  Objects that it creates get numbers of the compositor's that
    no other object has. -/
def Fits (protocol : Protocol) (t : ObjectTable δ) : Incoming → Prop
  | .deleteId _ => True
  | .event object opcode args =>
    object ≠ displayId ∧ ∃ entry ∈ t.get? object, ∃ spec ∈ entry.interface.event? opcode,
      (Message.marshal object opcode spec args).toOption =
        some (event object opcode args).packet ∧
      (((event object opcode args).creations protocol t).map Creation.id).Nodup ∧
      ∀ new ∈ (event object opcode args).creations protocol t,
        ObjectId.isClient new.id = false ∧ (t.live? new.id).isNone = true

instance (protocol : Protocol) (t : ObjectTable δ) (message : Incoming) :
    Decidable (message.Fits protocol t) :=
  match message with
  | .deleteId _ => inferInstanceAs (Decidable True)
  | .event object _ _ => inferInstanceAs (Decidable (object ≠ displayId ∧ _))

/-! ## Messages one after the other -/

/-- The table after all messages. -/
def applyAll (protocol : Protocol) (t : ObjectTable δ) (messages : List Incoming) :
    ObjectTable δ :=
  messages.foldl (apply protocol) t

/-- Each message fits the table that the messages before it leave. -/
def AllFit (protocol : Protocol) : ObjectTable δ → List Incoming → Prop
  | _, [] => True
  | t, message :: messages =>
    message.Fits protocol t ∧ AllFit protocol (message.apply protocol t) messages

instance AllFit.decidable (protocol : Protocol) :
    (t : ObjectTable δ) → (messages : List Incoming) → Decidable (AllFit protocol t messages)
  | _, [] => inferInstanceAs (Decidable True)
  | t, message :: messages =>
    have := AllFit.decidable protocol (message.apply protocol t) messages
    inferInstanceAs (Decidable (message.Fits protocol t ∧ _))

/-- The events that arrive, each with the queue that its sender had at that time. -/
def arrivals (protocol : Protocol) : ObjectTable δ → List Incoming → List (QueueId × QueuedEvent)
  | _, [] => []
  | t, message :: messages =>
    (message.arrival? t).toList ++ arrivals protocol (message.apply protocol t) messages

/-- The objects that messages create. -/
def allCreations (protocol : Protocol) : ObjectTable δ → List Incoming → List Creation
  | _, [] => []
  | t, message :: messages =>
    message.creations protocol t ++ allCreations protocol (message.apply protocol t) messages

/-- The inbox of a client that has received messages and not yet looked at them. -/
def inbox (messages : List Incoming) : Inbox where
  bytes := messages.flatMap (·.packet.bytes)
  fds := messages.flatMap (·.packet.fds)

end Incoming

/-! ## Objects that events create -/

namespace Creation

/-- The object exists and has no owner. -/
def Holds (new : Creation) (t : ObjectTable δ) : Prop :=
  ∃ entry, t.live? new.id = some entry ∧ entry.owned = false ∧ entry.interface = new.interface ∧
    entry.version = new.version ∧ entry.queue = new.queue

variable {t : ObjectTable δ} {new other : Creation} {news : List Creation}

theorem get?_enter (t : ObjectTable δ) (x : ObjectId) :
    (t.enter new).get? x = if x = new.id then some (new.entry t.nextGeneration) else t.get? x :=
  ObjectTable.get?_of_insert rfl x

theorem live?_enter (t : ObjectTable δ) {x : ObjectId} (differs : x ≠ new.id) :
    (t.enter new).live? x = t.live? x := by
  unfold ObjectTable.live?
  rw [get?_enter, if_neg differs]

theorem holds_enter : new.Holds (t.enter new) := by
  refine ⟨new.entry t.nextGeneration, ObjectTable.live?_some.2 ⟨?_, rfl⟩, rfl, rfl, rfl, rfl⟩
  rw [get?_enter, if_pos rfl]

theorem Holds.enter (holds : new.Holds t) (differs : new.id ≠ other.id) :
    new.Holds (t.enter other) := by
  obtain ⟨entry, live, rest⟩ := holds
  exact ⟨entry, by rw [live?_enter t differs, live], rest⟩

theorem Holds.enterAll (holds : new.Holds t) (differs : ∀ other ∈ news, new.id ≠ other.id) :
    new.Holds (news.foldl ObjectTable.enter t) := by
  induction news generalizing t with
  | nil => exact holds
  | cons other news ih =>
    refine ih (holds.enter (differs other List.mem_cons_self)) ?_
    intro later isLater
    exact differs later (List.mem_cons_of_mem other isLater)

theorem holds_enterAll (distinct : (news.map Creation.id).Nodup) (mem : new ∈ news) :
    new.Holds (news.foldl ObjectTable.enter t) := by
  induction news generalizing t with
  | nil => cases mem
  | cons first news ih =>
    obtain ⟨fresh, distinct⟩ := List.nodup_cons.1 distinct
    cases mem with
    | head =>
      refine holds_enter.enterAll ?_
      intro other isLater same
      exact fresh (List.mem_map.2 ⟨other, isLater, same.symm⟩)
    | tail _ isLater => exact ih distinct isLater

theorem Holds.deleteId {id : ObjectId} (holds : new.Holds t) :
    new.Holds (t.deleteId id).value := by
  obtain ⟨entry, live, rest⟩ := holds
  obtain ⟨found, alive⟩ := ObjectTable.live?_some.1 live
  obtain ⟨_, value⟩ | ⟨gone, absent, dead, value⟩ | ⟨kept, present, _, value⟩ :=
    ObjectTable.deleteId_cases t id
  · rw [value]
    exact ⟨entry, live, rest⟩
  · -- What goes is a zombie, so it is another object.
    rw [value]
    have differs : new.id ≠ id := by
      rintro rfl
      rw [found] at absent
      cases absent
      rw [alive] at dead
      cases dead
    refine ⟨entry, ObjectTable.live?_some.2 ⟨?_, alive⟩, rest⟩
    rw [ObjectTable.get?_remove, if_neg differs, found]
  · rw [value]
    by_cases same : new.id = id
    · subst same
      rw [found] at present
      cases present
      refine ⟨{ entry with idDeleted := true }, ObjectTable.live?_some.2 ⟨?_, alive⟩, rest⟩
      rw [ObjectTable.get?_put, if_pos rfl]
    · refine ⟨entry, ObjectTable.live?_some.2 ⟨?_, alive⟩, rest⟩
      rw [ObjectTable.get?_put, if_neg same, found]

/-- No message touches an object that another one created. -/
theorem Holds.apply {protocol : Protocol} {message : Incoming} (holds : new.Holds t)
    (fits : message.Fits protocol t) : new.Holds (message.apply protocol t) := by
  cases message with
  | deleteId id => exact holds.deleteId
  | event object opcode args =>
    obtain ⟨_, _, _, _, _, _, _, unused⟩ := fits
    refine holds.enterAll ?_
    intro other isNew same
    obtain ⟨entry, live, _⟩ := holds
    have free := (unused other isNew).2
    rw [← same, live] at free
    cases free

theorem Holds.applyAll {protocol : Protocol} {messages : List Incoming} (holds : new.Holds t)
    (fit : Incoming.AllFit protocol t messages) :
    new.Holds (Incoming.applyAll protocol t messages) := by
  induction messages generalizing t with
  | nil => exact holds
  | cons message messages ih => exact ih (holds.apply fit.1) fit.2

end Creation

theorem Incoming.Fits.holds {protocol : Protocol} {t : ObjectTable δ} {message : Incoming}
    {new : Creation} (fits : message.Fits protocol t) (mem : new ∈ message.creations protocol t) :
    new.Holds (message.apply protocol t) := by
  cases message with
  | deleteId => cases mem
  | event object opcode args =>
    obtain ⟨_, _, _, _, _, _, distinct, _⟩ := fits
    exact Creation.holds_enterAll distinct mem

theorem Incoming.AllFit.holds {protocol : Protocol} {t : ObjectTable δ} {messages : List Incoming}
    {new : Creation} (fit : AllFit protocol t messages)
    (mem : new ∈ allCreations protocol t messages) : new.Holds (applyAll protocol t messages) := by
  induction messages generalizing t with
  | nil => cases mem
  | cons message messages ih =>
    obtain ⟨fits, fit⟩ := fit
    obtain now | later := List.mem_append.1 mem
    · exact (fits.holds now).applyAll fit
    · exact ih fit later

/-! ## Events that arrive -/

namespace EventQueues

/-- The queues after events have arrived, each on its queue. -/
def pushAll (q : EventQueues) (arrivals : List (QueueId × QueuedEvent)) : EventQueues :=
  arrivals.foldl (fun q (queue, event) => (q.push queue event).value) q

/-- Those of the events that arrive on a queue. -/
def arrivingOn (queue : QueueId) (arrivals : List (QueueId × QueuedEvent)) : List QueuedEvent :=
  (arrivals.filter (·.1 = queue)).map Prod.snd

theorem get?_pushAll (q : EventQueues) (arrivals : List (QueueId × QueuedEvent)) (x : QueueId) :
    (q.pushAll arrivals).get? x = (q.get? x).map (· ++ arrivingOn x arrivals) := by
  induction arrivals generalizing q with
  | nil => simp [pushAll, arrivingOn]
  | cons arrival arrivals ih =>
    obtain ⟨queue, event⟩ := arrival
    have rest := ih (q.push queue event).value
    rw [get?_push] at rest
    by_cases same : x = queue
    · subst same
      simpa [pushAll, arrivingOn, Function.comp_def] using rest
    · simpa [pushAll, arrivingOn, same, Ne.symm same] using rest

end EventQueues

/-! ## The client does what messages say -/

theorem creationsFrom_cons (protocol : Protocol) (sender : Entry δ) (spec : MessageSpec)
    (index : Nat) (arg : Argument) (args : List Argument) :
    creationsFrom protocol sender spec index (arg :: args) =
      (arg.newId?.bind fun id => (protocol.argInterface? spec index).map fun interface =>
          { id, interface, version := sender.version, queue := sender.queue : Creation }).toList ++
        creationsFrom protocol sender spec (index + 1) args := by
  cases number : arg.newId? with
  | none => simp [creationsFrom, List.zipIdx_cons, number]
  | some id =>
    cases table : protocol.argInterface? spec index <;>
      simp [creationsFrom, List.zipIdx_cons, number, table]

theorem creationsFrom_received (protocol : Protocol) (sender : Entry δ) (spec : MessageSpec)
    (index : Nat) (args : List Argument) :
    creationsFrom protocol sender spec index (args.map Argument.received) =
      creationsFrom protocol sender spec index args := by
  induction args generalizing index with
  | nil => rfl
  | cons arg args ih =>
    have number : arg.received.newId? = arg.newId? := by
      cases arg with
      | object id => cases id <;> rfl
      | _ => rfl
    rw [List.map_cons, creationsFrom_cons, creationsFrom_cons, number, ih]

namespace Connection

variable {c : Connection δ}

/-- Objects under numbers that are free and distinct are all entered. -/
theorem enterNewObjects_value {protocol : Protocol} {sender : ObjectId} {entry : Entry δ}
    {spec : MessageSpec} {index : Nat} {args : List Argument} {t : ObjectTable δ}
    (distinct : ((creationsFrom protocol entry spec index args).map Creation.id).Nodup)
    (unused : ∀ new ∈ creationsFrom protocol entry spec index args,
      ObjectId.isClient new.id = false ∧ (t.live? new.id).isNone = true) :
    (enterNewObjects protocol sender entry spec index args t).value =
      (none, (creationsFrom protocol entry spec index args).foldl ObjectTable.enter t) := by
  induction args generalizing index t with
  | nil => rfl
  | cons arg args ih =>
    rw [creationsFrom_cons] at distinct unused ⊢
    unfold enterNewObjects
    cases number : arg.newId? with
    | none =>
      simp only [number, Option.bind_none, Option.toList_none, List.nil_append] at distinct unused ⊢
      exact ih distinct unused
    | some id =>
      cases table : protocol.argInterface? spec index with
      | none =>
        simp only [number, table, Option.bind_some, Option.map_none, Option.toList_none,
          List.nil_append, Logged.value_bind] at distinct unused ⊢
        exact ih distinct unused
      | some interface =>
        simp only [number, table, Option.bind_some, Option.map_some, Option.toList_some,
          List.singleton_append, List.map_cons, List.nodup_cons, List.foldl_cons,
          List.forall_mem_cons] at distinct unused ⊢
        obtain ⟨fresh, distinct⟩ := distinct
        obtain ⟨⟨foreign, free⟩, unused⟩ := unused
        -- The number that is entered first is none of those that follow.
        have still : ∀ new ∈ creationsFrom protocol entry spec (index + 1) args,
            ObjectId.isClient new.id = false ∧ ((t.enter
              { id, interface, version := entry.version, queue := entry.queue }).live?
                new.id).isNone = true := by
          intro new later
          obtain ⟨foreign, free⟩ := unused new later
          refine ⟨foreign, ?_⟩
          rw [Creation.live?_enter]
          · exact free
          · intro same
            exact fresh (List.mem_map.2 ⟨new, later, same⟩)
        have inserted : t.insertServer id interface entry.version entry.queue =
            .ok (t.enter { id, interface, version := entry.version, queue := entry.queue }) := by
          simp only [ObjectTable.insertServer, foreign, Option.isNone_iff_eq_none.1 free]
          rfl
        rw [inserted]
        exact ih distinct still

/-- The connection with other bytes and descriptors in its inbox. -/
def withInbox (c : Connection δ) (bytes : Wire.Bytes) (fds : List Fd) : Connection δ :=
  { c with inbox := { bytes, fds } }

section

variable {object : ObjectId} {opcode : UInt16} {args : List Argument} {entry : Entry δ}
  {spec : MessageSpec}

theorem handles_deleteId (id : ObjectId) (bytes : Wire.Bytes) (fds : List Fd) :
    Handles (c.withInbox bytes fds)
      ⟨displayId, Protocol.Core.deleteIdEvent, UInt16.ofNat (Message.size [.uint id])⟩
      (List.flatMap Argument.encode [.uint id]) none
      { c.withInbox bytes fds with objects := (c.objects.deleteId id).value } := by
  have accepted : Message.check ⟨"delete_id", "u", [none]⟩ [.uint id] = .ok () := rfl
  have short : Message.sizes [.uint id] < UInt32.size := by
    rw [sizes_uint]
    decide
  exact .deleteId rfl rfl rfl (Message.demarshal_encode accepted short fds)

/-- An event of a zombie only takes its descriptors. -/
theorem handles_zombie (other : object ≠ displayId) (found : c.objects.get? object = some entry)
    (known : entry.interface.event? opcode = some spec) (dead : entry.life = .zombie)
    (accepted : Message.check spec args = .ok ()) (bytes : Wire.Bytes) (fds : List Fd) :
    Handles (c.withInbox bytes (args.filterMap Argument.fd? ++ fds))
      ⟨object, opcode, UInt16.ofNat (Message.size args)⟩ (args.flatMap Argument.encode) none
      (c.withInbox bytes fds) := by
  have swallowed : Handles (c.withInbox bytes (args.filterMap Argument.fd? ++ fds))
      ⟨object, opcode, UInt16.ofNat (Message.size args)⟩ (args.flatMap Argument.encode) none _ :=
    .swallowed other found known dead
  rw [swallowedFds_of_check accepted] at swallowed
  simpa [withInbox, withFds] using swallowed

/-- An event of a live object creates objects and is queued. -/
theorem handles_live (other : object ≠ displayId) (found : c.objects.get? object = some entry)
    (known : entry.interface.event? opcode = some spec) (live : entry.life = .live)
    (accepted : Message.check spec args = .ok ())
    (small : Message.size args ≤ Wire.maxMessageSize)
    (distinct : ((creationsFrom c.protocol entry spec 0 args).map Creation.id).Nodup)
    (unused : ∀ new ∈ creationsFrom c.protocol entry spec 0 args,
      ObjectId.isClient new.id = false ∧ (c.objects.live? new.id).isNone = true)
    (exist : c.queues.contains entry.queue = true) (bytes : Wire.Bytes) (fds : List Fd) :
    Handles (c.withInbox bytes (args.filterMap Argument.fd? ++ fds))
      ⟨object, opcode, UInt16.ofNat (Message.size args)⟩ (args.flatMap Argument.encode) none
      { c.withInbox bytes fds with
        objects := (creationsFrom c.protocol entry spec 0 args).foldl ObjectTable.enter c.objects
        queues := (c.queues.push entry.queue
          { sender := object, generation := entry.generation, opcode
            args := args.map Argument.received }).value } := by
  have short : Message.sizes args < UInt32.size := by
    have size := Message.size_eq args
    unfold Wire.maxMessageSize at small
    show _ < 4294967296
    omega
  rw [← creationsFrom_received] at distinct unused
  have queued : Handles (c.withInbox bytes (args.filterMap Argument.fd? ++ fds))
      ⟨object, opcode, UInt16.ofNat (Message.size args)⟩ (args.flatMap Argument.encode) none _ :=
    .queued other found known live (Message.demarshal_encode accepted short fds)
      (enterNewObjects_value distinct unused)
  rw [creationsFrom_received] at queued
  simpa [withInbox, withFds, exist] using queued

end

/-- One message that fits: what it is cut off as, and what it does. -/
theorem handles_of_fits {message : Incoming} (housed : c.Housed)
    (fits : message.Fits c.protocol c.objects) (bytes : Wire.Bytes) (fds : List Fd) :
    ∃ header body,
      (∀ rest, Front.of (message.packet.bytes ++ rest) = .message header body rest) ∧
      Handles (c.withInbox bytes (message.packet.fds ++ fds)) header body none
        { c.withInbox bytes fds with
          objects := message.apply c.protocol c.objects
          queues := c.queues.pushAll (message.arrival? c.objects).toList } := by
  cases message with
  | deleteId id =>
    have small : Message.size [.uint id] ≤ Wire.maxMessageSize := by
      rw [Message.size_eq, sizes_uint]
      decide
    exact ⟨_, _, Front.of_encode displayId Protocol.Core.deleteIdEvent small,
      handles_deleteId id bytes fds⟩
  | event object opcode args =>
    obtain ⟨other, entry, found, spec, known, written, distinct, unused⟩ := fits
    rw [Option.mem_def] at found known
    obtain ⟨accepted, small⟩ := Message.check_of_marshal written
    refine ⟨_, _, Front.of_encode object opcode small, ?_⟩
    cases life : entry.life with
    | zombie =>
      have dead : c.objects.live? object = none := by
        simp [ObjectTable.live?, found, life]
      simp only [Incoming.apply, Incoming.creations, Incoming.arrival?, dead]
      exact handles_zombie other found known life accepted bytes fds
    | live =>
      have alive : c.objects.live? object = some entry :=
        ObjectTable.live?_some.2 ⟨found, life⟩
      have exist := housed.used entry.queue ⟨object, entry, alive, rfl⟩
      simp only [Incoming.creations, alive, known] at distinct unused
      simp only [Incoming.apply, Incoming.creations, Incoming.arrival?, alive, known]
      exact handles_live other found known life accepted small distinct unused exist bytes fds

theorem absorbs_of_allFit {messages : List Incoming} (housed : c.Housed)
    (fit : Incoming.AllFit c.protocol c.objects messages) :
    Absorbs { c with inbox := Incoming.inbox messages }
      { c with
        inbox := {}
        objects := Incoming.applyAll c.protocol c.objects messages
        queues := c.queues.pushAll (Incoming.arrivals c.protocol c.objects messages) } := by
  induction messages generalizing c with
  | nil => exact .incomplete Front.of_nil
  | cons message messages ih =>
    obtain ⟨fits, fit⟩ := fit
    obtain ⟨header, body, front, handled⟩ := handles_of_fits housed fits
      (Incoming.inbox messages).bytes (Incoming.inbox messages).fds
    have rest := ih (handled.housed ⟨housed.default, housed.used⟩) fit
    simp only [EventQueues.pushAll, ← List.foldl_append] at rest
    exact .message (front _) handled rest

/-- Events arrive on queues that were there before the first of them. -/
theorem contains_of_arrivals {messages : List Incoming} (housed : c.Housed)
    (fit : Incoming.AllFit c.protocol c.objects messages) :
    ∀ arrival ∈ Incoming.arrivals c.protocol c.objects messages,
      c.queues.contains arrival.1 = true := by
  induction messages generalizing c with
  | nil => simp [Incoming.arrivals]
  | cons message messages ih =>
    obtain ⟨fits, fit⟩ := fit
    obtain ⟨_, _, _, handled⟩ := handles_of_fits housed fits [] []
    have after := handled.housed ⟨housed.default, housed.used⟩
    intro arrival mem
    obtain now | later := List.mem_append.1 mem
    · cases message with
      | deleteId => cases now
      | event object opcode args =>
        simp only [Incoming.arrival?, Option.mem_toList, Option.map_eq_some_iff] at now
        obtain ⟨sender, live, rfl⟩ := now
        exact housed.used sender.queue ⟨object, sender, live, rfl⟩
    · have exist := ih after fit arrival later
      rwa [EventQueues.contains, EventQueues.get?_pushAll, Option.isSome_map] at exist

/-- Whatever messages a client receives, if each of them fits when its turn comes, then no error is
    recorded and the inbox ends up empty.  Each event of a live object is added at the end of the
    queue that the object had, with its own arguments and descriptors, and nothing else is added
    to queues.  The objects that these events create are there, and nobody owns them. -/
theorem absorb_stream (protocol : Protocol) (actions : List (Action δ)) (messages : List Incoming)
    (reached : (initial protocol).run actions = c) (isOpen : c.closed = false)
    (clean : c.error = none) (fit : Incoming.AllFit c.protocol c.objects messages) :
    let after := { c with inbox := Incoming.inbox messages }.absorb.value
    let arrivals := Incoming.arrivals c.protocol c.objects messages
    after.error = none ∧ after.inbox = {} ∧
    (∀ queue, after.queues.get? queue =
      (c.queues.get? queue).map (· ++ EventQueues.arrivingOn queue arrivals)) ∧
    (∀ arrival ∈ arrivals, c.queues.contains arrival.1 = true) ∧
    after.objects = Incoming.applyAll c.protocol c.objects messages ∧
    ∀ new ∈ Incoming.allCreations c.protocol c.objects messages, new.Holds after.objects := by
  intro after arrivals
  have housed : c.Housed := by
    subst reached
    exact run_housed protocol actions isOpen
  have value : after = _ := absorbs_iff.1 (absorbs_of_allFit housed fit)
  rw [value]
  refine ⟨clean, rfl, ?_, contains_of_arrivals housed fit, rfl, ?_⟩
  · intro queue
    exact EventQueues.get?_pushAll c.queues arrivals queue
  · intro new mem
    exact fit.holds mem

/-- The event of a zombie takes its descriptor along, so each of the other two finds its own.  The
    second event comes from the object that the first one creates. -/
theorem absorb_stream_zombie :
    let maker : Interface := ⟨"maker", 1, [], [⟨"made", "nh", [some 0, none]⟩]⟩
    let display : ObjectRef := ⟨displayId, 0, Protocol.Core.display, 1⟩
    let c := (initial ⟨[maker]⟩ : Connection Unit).run
      [.create display maker 1, .request display 1 [.newId 2] false [],
        .create display maker 1, .request display 1 [.newId 3] false [],
        .release ⟨3, 2, maker, 1⟩]
    let messages : List Incoming :=
      [.event 3 0 [.newId 0xff000000, .fd ⟨7⟩], .event 2 0 [.newId 0xff000000, .fd ⟨8⟩],
        .deleteId 3, .event 0xff000000 0 [.newId 0xff000001, .fd ⟨9⟩]]
    let after := { c with inbox := Incoming.inbox messages }.absorb.value
    after.error = none ∧ after.inbox = {} ∧
    after.queues.get? QueueId.default =
      some [⟨2, 1, 0, [.newId 0xff000000, .fd ⟨8⟩]⟩,
        ⟨0xff000000, 3, 0, [.newId 0xff000001, .fd ⟨9⟩]⟩] ∧
    (after.objects.get? 3).isNone = true ∧ (after.objects.live? 0xff000001).isSome = true := by
  intro maker display c messages after
  obtain ⟨error, inbox, arrived, _, objects, _⟩ := absorb_stream (c := c) _ _ messages rfl
    (by decide +kernel) (by decide +kernel) (by decide +kernel)
  refine ⟨error, inbox, (arrived QueueId.default).trans (by decide +kernel), ?_, ?_⟩
  · rw [objects]
    decide +kernel
  · rw [objects]
    decide +kernel

end Connection

end Client

end Wayland
