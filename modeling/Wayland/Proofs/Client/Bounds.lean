import Wayland.Proofs.Allocation
import Wayland.Proofs.Client.Lineage
import Wayland.Proofs.Client.NumberReuse
import Wayland.Proofs.Client.QueueNumbers
import Wayland.Proofs.Wire.Bounds

/-! # Reading whatever arrives

The bytes in the inbox come from another process.  `absorb?` reads them with care: it walks over
them with an offset, and has no answer once it cuts, subtracts, takes away or counts beyond what
there is, or makes more turns than there can be messages.  `absorb?_eq` says that it always has the
answer of `absorb`.

The objects and queues of a connection that is in use are in order, which `Orderly` puts together.
No message can change that (`Handles.orderly`), not even one that is given up halfway.
-/

namespace Wayland

namespace Wire

variable {bytes : Bytes}

theorem length_of_readHeader {header : Header} (read : readHeader bytes = .ok header) :
    8 ≤ bytes.length := by
  have long := (readHeader_ok.1 read).length_le
  rwa [Value.length_encode] at long

theorem exists_readHeader (long : 8 ≤ bytes.length) : ∃ header, readHeader bytes = .ok header := by
  match bytes, long with
  | _ :: _ :: _ :: _ :: _ :: _ :: _ :: _ :: _, _ => exact ⟨_, rfl⟩

theorem readHeader_take {header : Header} (read : readHeader bytes = .ok header) {count : Nat}
    (enough : 8 ≤ count) : readHeader (bytes.take count) = .ok header := by
  rw [readHeader_ok] at read ⊢
  refine List.prefix_take_iff.2 ⟨read, ?_⟩
  rw [Value.length_encode]
  exact enough

end Wire

namespace Client

open Wire (minus? slice? drain? readHeader)

variable {δ : Type}

/-! ## The front of some bytes -/

namespace Front

/-- Looks at the front of what follows an offset, with care. -/
def at? (bytes : Wire.Bytes) (offset : Nat) : Option Front := do
  if (← minus? bytes.length offset) < Wire.headerSize then return .incomplete
  else
    let pending ← slice? bytes offset bytes.length
    match readHeader pending with
    | .error _ => none
    | .ok header =>
      let size := header.size.toNat
      if size < Wire.headerSize || size % 4 ≠ 0 then return .malformed header
      else if pending.length < size then return .incomplete
      else return .message header (← slice? pending Wire.headerSize size) (pending.drop size)

variable {bytes : Wire.Bytes}

theorem of_short (short : bytes.length < 8) : Front.of bytes = .incomplete := by
  cases read : readHeader bytes with
  | error cause => simp only [Front.of, read]
  | ok header => exact absurd (Wire.length_of_readHeader read) (Nat.not_le.2 short)

theorem at?_eq {offset : Nat} (within : offset ≤ bytes.length) :
    at? bytes offset = some (Front.of (bytes.drop offset)) := by
  unfold at?
  rw [Wire.minus?_of_le within, Option.bind_eq_bind, Option.bind_some]
  by_cases short : bytes.length - offset < Wire.headerSize
  · rw [if_pos short, of_short (by rwa [List.length_drop])]
    rfl
  · rw [if_neg short, Wire.slice?_to_end within, Option.bind_eq_bind, Option.bind_some]
    rw [← List.length_drop] at short
    generalize bytes.drop offset = pending at short ⊢
    obtain ⟨header, read⟩ := Wire.exists_readHeader (Nat.not_lt.1 short)
    simp only [Front.of, read]
    split
    · rfl
    next good =>
      simp only [Bool.or_eq_true, decide_eq_true_eq, not_or, Nat.not_lt] at good
      by_cases cut : pending.length < header.size.toNat
      · have cut' : (pending.take header.size.toNat).length < header.size.toNat := by
          rw [List.length_take]
          omega
        rw [if_pos cut, if_pos cut']
        rfl
      · have whole : ¬ (pending.take header.size.toNat).length < header.size.toNat := by
          rw [List.length_take]
          omega
        rw [if_neg cut, if_neg whole, Wire.slice?_of_le good.1 (Nat.not_lt.1 cut)]
        rfl

/-- Where there is no complete message, a header or what it announces is missing. -/
theorem of_incomplete (front : Front.of bytes = .incomplete) :
    bytes.length < 8 ∨
      ∃ header, readHeader bytes = .ok header ∧ bytes.length < header.size.toNat := by
  by_cases short : bytes.length < 8
  · exact .inl short
  · right
    obtain ⟨header, read⟩ := Wire.exists_readHeader (Nat.not_lt.1 short)
    simp only [Front.of, read] at front
    split at front
    · cases front
    · split at front
      next cut =>
        rw [List.length_take] at cut
        exact ⟨header, read, by omega⟩
      · cases front

theorem of_malformed {header : Wire.Header} (front : Front.of bytes = .malformed header) :
    readHeader bytes = .ok header ∧ (header.size.toNat < 8 ∨ header.size.toNat % 4 ≠ 0) := by
  cases read : readHeader bytes with
  | error cause => simp [Front.of, read] at front
  | ok found =>
    simp only [Front.of, read] at front
    split at front
    next bad =>
      cases front
      simp only [Bool.or_eq_true, decide_eq_true_eq] at bad
      exact ⟨rfl, bad⟩
    · split at front <;> cases front

end Front

/-! ## One message -/

/-- Each message that is handled is a whole one. -/
theorem Handling.frame (h : Handling δ) :
    readHeader h.message = .ok h.header ∧ h.message.length = h.header.size.toNat ∧
      8 ≤ h.header.size.toNat ∧ h.header.size.toNat % 4 = 0 := by
  obtain ⟨read, low, aligned, long, _, _⟩ := Front.of_message.1 h.front
  exact ⟨Wire.readHeader_take read low, List.length_take_of_le long, low, aligned⟩

/-- The compositor lets go of a number, with care. -/
def ObjectTable.deleteId? (t : ObjectTable δ) (id : ObjectId) : Option (ObjectTable δ) :=
  match t.get? id with
  | none => some t
  | some entry =>
    match entry.life with
    | .zombie => do return { t with entries := t.entries.erase id, ids := ← t.ids.recycle? id }
    | .live => some (t.put id { entry with idDeleted := true })

theorem ObjectTable.Sound.deleteId?_eq {t : ObjectTable δ} (sound : t.Sound) (id : ObjectId) :
    t.deleteId? id = some (t.deleteId id).value := by
  unfold deleteId? ObjectTable.deleteId
  cases t.get? id with
  | none => rfl
  | some entry =>
    dsimp only
    cases entry.life with
    | zombie =>
      dsimp only
      rw [sound.pool.recycle?_eq]
      rfl
    | live => rfl

namespace Connection

/-- Handles an event of the display, with care. -/
def handleDisplayEvent? (c : Connection δ) (opcode : UInt16) (body : Wire.Bytes) :
    Option (Option FatalError × Connection δ) :=
  match Protocol.Core.display.event? opcode with
  | none => some (some (.malformed (.noDisplayEvent opcode)), c)
  | some spec => do
    let (result, fds) ← Message.demarshal? spec body c.inbox.fds
    let c := c.withFds fds
    match result with
    | .error cause => return (some (.malformed (.displayEvent spec.name cause)), c)
    | .ok args =>
      match opcode, args with
      | Protocol.Core.errorEvent, [.object object, .uint code, .str (some message)] =>
        let id := object.getD 0
        let interface := ((c.objects.get? id).map (·.interface.name)).getD "unknown"
        return (none, (c.fail (.protocol { object := id, interface, code, message })).value)
      | Protocol.Core.deleteIdEvent, [.uint id] =>
        return (none, { c with objects := ← c.objects.deleteId? id })
      | _, _ => return (none, c)

/-- Handles an event of another object, with care.  No more descriptors are thrown away than there
    are. -/
def handleObjectEvent? (c : Connection δ) (id : ObjectId) (opcode : UInt16) (body : Wire.Bytes) :
    Option (Option FatalError × Connection δ) :=
  match c.objects.get? id with
  | none => some (none, c)
  | some entry =>
    match entry.interface.event? opcode with
    | none => some (some (.malformed (.noEvent entry.interface.name id opcode)), c)
    | some spec =>
      match entry.life with
      | .zombie => do
        let fds ← drain? c.inbox.fds (min (swallowedFds spec) c.inbox.fds.length)
        return (none, c.withFds fds)
      | .live => do
        let (result, fds) ← Message.demarshal? spec body c.inbox.fds
        let c := c.withFds fds
        match result with
        | .error cause =>
          return (some (.malformed (.event entry.interface.name id spec.name cause)), c)
        | .ok args =>
          match (enterNewObjects c.protocol id entry spec 0 args c.objects).value with
          | (some cause, objects) =>
            return (some (.malformed (.newObject cause)), { c with objects })
          | (none, objects) =>
            let queue := if c.queues.contains entry.queue then entry.queue else QueueId.default
            let queues := (c.queues.push queue
              { sender := id, generation := entry.generation, opcode, args }).value
            return (none, { c with objects, queues })

/-- Handles one message, with care. -/
def handleMessage? (c : Connection δ) (header : Wire.Header) (body : Wire.Bytes) :
    Option (Option FatalError × Connection δ) :=
  if header.object = displayId then c.handleDisplayEvent? header.opcode body
  else c.handleObjectEvent? header.object header.opcode body

variable {c c' d d' : Connection δ}

section

variable {header : Wire.Header} {body : Wire.Bytes} {fault : Option FatalError}

theorem Handles.within (handles : Handles c header body fault c') (sound : c.objects.Sound)
    (short : body.length + 3 < UInt64.size) : c.handleMessage? header body = some (fault, c') := by
  have careful (spec : MessageSpec) := Message.demarshal?_eq spec short c.inbox.fds
  cases handles with
  | noDisplayEvent display unknown => simp [handleMessage?, handleDisplayEvent?, display, unknown]
  | badDisplayEvent display known read =>
    simp [handleMessage?, handleDisplayEvent?, display, known, careful, read]
  | report display opcode known read =>
    rw [opcode] at known
    simp only [handleMessage?, handleDisplayEvent?, display, if_true, opcode, known, careful, read,
      Option.bind_eq_bind, Option.bind_some]
    exact congrArg (fun c => some (none, c)) (fail_value _ _)
  | deleteId display opcode known read =>
    rw [opcode] at known
    simp only [handleMessage?, handleDisplayEvent?, display, if_true, opcode, known, careful, read,
      Option.bind_eq_bind, Option.bind_some]
    change (c.objects.deleteId? _).bind _ = _
    rw [sound.deleteId?_eq]
    rfl
  | ignored display known read noReport noNumber =>
    simp only [handleMessage?, handleDisplayEvent?, display, if_true, known, careful, read,
      Option.bind_eq_bind, Option.bind_some]
    split
    next opcode => exact absurd rfl (noReport _ _ _ opcode)
    next opcode => exact absurd rfl (noNumber _ opcode)
    next => rfl
  | unknown other absent => simp [handleMessage?, handleObjectEvent?, other, absent]
  | noEvent other found unknown => simp [handleMessage?, handleObjectEvent?, other, found, unknown]
  | swallowed other found known dead =>
    simp [handleMessage?, handleObjectEvent?, other, found, known, dead, Wire.drain?_min]
  | badEvent other found known live read =>
    simp [handleMessage?, handleObjectEvent?, other, found, known, live, careful, read]
  | conflict other found known live read entered =>
    simp [handleMessage?, handleObjectEvent?, other, found, known, live, careful, read, withFds,
      entered]
  | queued other found known live read entered =>
    simp only [handleMessage?, handleObjectEvent?, other, if_false, found, known, live, careful,
      read, withFds, entered, Option.bind_eq_bind, Option.bind_some]
    rfl

end

/-! ## Order -/

/-- The objects are in step with their numbers, live objects have their queues, and the numbers of
    queues that exist have been given out. -/
structure Orderly (c : Connection δ) : Prop where
  objects : c.objects.Sound
  housed : c.Housed
  numbered : ∀ queue, c.queues.contains queue = true → queue < c.queues.next

/-- A connection in use is in order, whatever has happened to it. -/
theorem run_orderly (protocol : Protocol) (actions : List (Action δ))
    (isOpen : ((initial protocol : Connection δ).run actions).closed = false) :
    ((initial protocol : Connection δ).run actions).Orderly where
  objects := (accounted_open isOpen).2
  housed := run_housed protocol actions isOpen
  numbered _ := lt_next_of_contains protocol actions

theorem Orderly.withBytes (orderly : c.Orderly) (bytes : Wire.Bytes) :
    (c.withBytes bytes).Orderly :=
  ⟨orderly.objects, ⟨orderly.housed.default, orderly.housed.used⟩, orderly.numbered⟩

theorem Orderly.fail (orderly : c.Orderly) (error : FatalError) : (c.fail error).value.Orderly := by
  rw [fail_value]
  exact ⟨orderly.objects, ⟨orderly.housed.default, orderly.housed.used⟩, orderly.numbered⟩

/-- An object that an event has created before it comes to a wrong number is as good as any. -/
theorem enterNewObjects_sound {protocol : Protocol} {sender : ObjectId} {entry : Entry δ}
    {spec : MessageSpec} {args : List Argument} {t t' : ObjectTable δ}
    {result : Option NumberConflict} (sound : t.Sound)
    (entered : (enterNewObjects protocol sender entry spec 0 args t).value = (result, t')) :
    t'.Sound := by
  have leads := enterNewObjects_leads protocol sender entry spec args 0 t
  rw [Logged.Leads, entered] at leads
  exact leads.sound sound

theorem Handles.orderly {header : Wire.Header} {body : Wire.Bytes} {fault : Option FatalError}
    (handles : Handles c header body fault c') (orderly : c.Orderly) : c'.Orderly where
  objects := by
    cases handles with
    | deleteId => exact orderly.objects.deleteId
    | conflict _ _ _ _ _ entered | queued _ _ _ _ _ entered =>
      exact enterNewObjects_sound orderly.objects entered
    | _ => exact orderly.objects
  housed := handles.housed orderly.housed
  numbered := by
    intro queue
    cases handles with
    | queued =>
      rw [EventQueues.contains_push, EventQueues.next_push]
      exact orderly.numbered queue
    | _ => exact orderly.numbered queue

theorem Absorbs.orderly (run : Absorbs c d) (orderly : c.Orderly) : d.Orderly := by
  induction run with
  | incomplete => exact orderly
  | malformed => exact orderly.fail _
  | fault _ handled => exact (handled.orderly (orderly.withBytes _)).fail _
  | message _ handled _ ih => exact ih (handled.orderly (orderly.withBytes _))

/-! ## All messages -/

/-- Handles the messages behind an offset, in at most `turns` turns, with care.  Answers also the
    offset at the end. -/
def absorbFrom? : Nat → Nat → Connection δ → Option (Nat × Connection δ)
  | 0, _, _ => none
  | turns + 1, offset, c => do
    match ← Front.at? c.inbox.bytes offset with
    | .incomplete => return (offset, c)
    | .malformed header =>
      return (offset, (c.fail (.malformed (.size header.object header.size.toNat))).value)
    | .message header body _ =>
      match ← c.handleMessage? header body with
      | (some error, c) => return (offset + header.size.toNat, (c.fail error).value)
      | (none, c) => absorbFrom? turns (offset + header.size.toNat) c

/-- Handles all complete messages in the inbox and then takes them away, with care.  A message has
    at least eight bytes. -/
def absorb? (c : Connection δ) : Option (Connection δ) := do
  let (offset, c) ← absorbFrom? (c.inbox.bytes.length / Wire.headerSize + 1) 0 c
  return c.withBytes (← drain? c.inbox.bytes offset)

theorem fail_withBytes (c : Connection δ) (error : FatalError) (bytes : Wire.Bytes) :
    ((c.withBytes bytes).fail error).value = (c.fail error).value.withBytes bytes := by
  simp only [fail_value, withBytes]

theorem length_of_front {bytes body rest : Wire.Bytes} {header : Wire.Header}
    (front : Front.of bytes = .message header body rest) : body.length + 3 < UInt64.size := by
  obtain ⟨_, _, _, _, rfl, _⟩ := Front.of_message.1 front
  have small := header.size.toNat_lt
  have large : UInt64.size = 18446744073709551616 := rfl
  rw [List.length_drop, List.length_take]
  omega

section

variable {bytes : Wire.Bytes} {offset turns : Nat}

theorem at?_withBytes (rest : d.inbox.bytes = bytes.drop offset) (within : offset ≤ bytes.length) :
    Front.at? (d.withBytes bytes).inbox.bytes offset = some (Front.of d.inbox.bytes) := by
  rw [rest]
  exact Front.at?_eq within

/-- The offset behind a message. -/
theorem offset_of_front {header : Wire.Header} {body left : Wire.Bytes}
    (rest : d.inbox.bytes = bytes.drop offset) (within : offset ≤ bytes.length)
    (front : Front.of d.inbox.bytes = .message header body left) :
    8 ≤ header.size.toNat ∧ offset + header.size.toNat ≤ bytes.length ∧
      left = bytes.drop (offset + header.size.toNat) := by
  obtain ⟨_, low, _, long, _, tail⟩ := Front.of_message.1 front
  rw [rest, List.length_drop] at long
  rw [rest, List.drop_drop] at tail
  exact ⟨low, by omega, tail⟩

/-- The loop that cuts messages off and the one that walks over them stop at the same place. -/
theorem Absorbs.within (run : Absorbs d d') (orderly : d.Orderly)
    (rest : d.inbox.bytes = bytes.drop offset) (within : offset ≤ bytes.length)
    (enough : (bytes.length - offset) / 8 ≤ turns) :
    ∃ stop, stop ≤ bytes.length ∧ d'.inbox.bytes = bytes.drop stop ∧
      absorbFrom? (turns + 1) offset (d.withBytes bytes) = some (stop, d'.withBytes bytes) := by
  induction run generalizing offset turns with
  | incomplete front =>
    refine ⟨offset, within, rest, ?_⟩
    rw [absorbFrom?, at?_withBytes rest within, front]
    rfl
  | malformed front =>
    refine ⟨offset, within, by rw [fail_value]; exact rest, ?_⟩
    rw [absorbFrom?, at?_withBytes rest within, front, ← fail_withBytes]
    rfl
  | @fault c c' header body left error front handled =>
    obtain ⟨_, behind, tail⟩ := offset_of_front rest within front
    have done : (c.withBytes bytes).handleMessage? header body =
        some (some error, c'.withBytes bytes) :=
      (handled.withBytes bytes).within orderly.objects (length_of_front front)
    refine ⟨offset + header.size.toNat, behind, ?_, ?_⟩
    · rw [fail_value]
      exact handled.bytes.trans tail
    · rw [absorbFrom?, at?_withBytes rest within, front, Option.bind_eq_bind, Option.bind_some]
      dsimp only
      rw [done, ← fail_withBytes]
      rfl
  | @message c c' d header body left front handled _ ih =>
    obtain ⟨low, behind, tail⟩ := offset_of_front rest within front
    have done : (c.withBytes bytes).handleMessage? header body =
        some (none, c'.withBytes bytes) :=
      (handled.withBytes bytes).within orderly.objects (length_of_front front)
    -- Each message uses up eight bytes at least, so there is another turn.
    obtain ⟨turns, rfl⟩ : ∃ fewer, turns = fewer + 1 := ⟨turns - 1, by omega⟩
    have fewer : (bytes.length - (offset + header.size.toNat)) / 8 ≤ turns := by omega
    obtain ⟨stop, before, remains, value⟩ :=
      ih (handled.orderly (orderly.withBytes left)) (handled.bytes.trans tail) behind fewer
    refine ⟨stop, before, remains, ?_⟩
    rw [absorbFrom?, at?_withBytes rest within, front, Option.bind_eq_bind, Option.bind_some]
    dsimp only
    rw [done, Option.bind_eq_bind, Option.bind_some]
    exact value

end

/-- Whatever has arrived is read within bounds and in finite time. -/
theorem Orderly.absorb?_eq (orderly : c.Orderly) : c.absorb? = some c.absorb.value := by
  obtain ⟨stop, before, remains, value⟩ := c.absorb_absorbs.within orderly
    (List.drop_zero).symm (Nat.zero_le _) (Nat.le_refl _)
  have same : c.withBytes c.inbox.bytes = c := rfl
  rw [same, Nat.sub_zero] at value
  unfold absorb?
  rw [Wire.headerSize, value, Option.bind_eq_bind, Option.bind_some]
  dsimp only
  have drained : drain? (c.absorb.value.withBytes c.inbox.bytes).inbox.bytes stop =
      some c.absorb.value.inbox.bytes := by
    rw [remains]
    exact Wire.drain?_of_le before
  rw [drained]
  rfl

/-! ## Where reading ends -/

/-- Reading ends at a message that makes no sense: it shows a fault when it is handled, or its
    header gives a size that no message has. -/
def Falters (c : Connection δ) : Prop :=
  (∃ h, c.handlings.getLast? = some h ∧ h.outcome.1.isSome = true) ∨
    ∃ header, readHeader c.absorb.value.inbox.bytes = .ok header ∧
      (header.size.toNat < 8 ∨ header.size.toNat % 4 ≠ 0)

/-- Reading ends for want of a complete message, or with an error. -/
theorem absorbUpTo_stops {fuel : Nat} (enough : c.inbox.bytes.length ≤ fuel) :
    Front.of (absorbUpTo fuel c).value.inbox.bytes = .incomplete ∨
      (absorbUpTo fuel c).value.error.isSome = true ∧
        ((∃ header, Front.of (absorbUpTo fuel c).value.inbox.bytes = .malformed header) ∨
          ∃ h, (handlingsUpTo fuel c).getLast? = some h ∧ h.outcome.1.isSome = true) := by
  induction fuel generalizing c with
  | zero =>
    have empty : c.inbox.bytes = [] := List.eq_nil_of_length_eq_zero (by omega)
    left
    rw [absorbUpTo, Logged.value_pure, empty, Front.of_nil]
  | succ fuel ih =>
    obtain ⟨incomplete, _, value⟩ | ⟨header, error, malformed, _, value⟩ |
        ⟨h, rfl, ⟨error, fault, handled, value⟩ | ⟨_, handled, value⟩⟩ := absorbUpTo_cases fuel c
    · rw [value]
      exact .inl incomplete
    · rw [value, fail_value]
      exact .inr ⟨rfl, .inl ⟨header, malformed⟩⟩
    · rw [value, fail_value, handled]
      exact .inr ⟨rfl, .inr ⟨h, rfl, by rw [fault]; rfl⟩⟩
    · have shorter := Front.length_rest_lt h.front
      rw [value, handled]
      obtain stops | ⟨recorded, malformed | ⟨h', last, faulty⟩⟩ :=
        ih (by rw [h.bytes_after]; omega)
      · exact .inl stops
      · exact .inr ⟨recorded, .inl malformed⟩
      · refine .inr ⟨recorded, .inr ⟨h', ?_, faulty⟩⟩
        rw [List.getLast?_cons, last]
        rfl

/-- Nothing that the other end sends can do harm.  The connection and its inbox may be any, as long
    as objects and queues are in order.  All of it is read within bounds and in as many turns as
    there are messages.  What is removed is a sequence of whole messages.  What is left is not a
    complete message, unless reading ended at one that makes no sense, and then an error is on
    record.  If the generations do not exceed 64 bits at the end, they never did.  And objects and
    queues are in order again, wherever reading ended. -/
theorem absorb_safe (orderly : c.Orderly) :
    let c' := c.absorb.value
    c.absorb? = some c' ∧
    c.inbox.bytes = c.handlings.flatMap Handling.message ++ c'.inbox.bytes ∧
    (∀ h ∈ c.handlings, readHeader h.message = .ok h.header ∧
      h.message.length = h.header.size.toNat ∧ 8 ≤ h.header.size.toNat ∧
      h.header.size.toNat % 4 = 0) ∧
    (c.Falters ∧ c'.error.isSome = true ∨ c'.inbox.bytes.length < 8 ∨
      ∃ header, readHeader c'.inbox.bytes = .ok header ∧
        c'.inbox.bytes.length < header.size.toNat) ∧
    (c'.objects.nextGeneration < UInt64.size →
      ∀ h ∈ c.handlings, h.after.objects.nextGeneration < UInt64.size) ∧
    c'.Orderly := by
  intro c'
  refine ⟨orderly.absorb?_eq, c.bytes_absorb, fun h _ => h.frame, ?_, ?_,
    c.absorb_absorbs.orderly orderly⟩
  · obtain stops | ⟨recorded, ⟨header, malformed⟩ | faulty⟩ :=
      absorbUpTo_stops (Nat.le_refl c.inbox.bytes.length)
    · exact .inr (Front.of_incomplete stops)
    · exact .inl ⟨.inr ⟨header, Front.of_malformed malformed⟩, recorded⟩
    · exact .inl ⟨.inl faulty, recorded⟩
  · intro small h handled
    exact Nat.lt_of_le_of_lt (c.handlings_carry.2 h handled).2.next small

/-- An interface with an event that creates two objects. -/
def twins : Interface where
  name := "twins"
  version := 1
  requests := []
  events := [⟨"born", "nn", [some 0, some 0]⟩]

/-- The first number of the two is one of the compositor's, the second is not, and behind the
    message there is a part of another one. -/
def halfBorn : Connection Unit :=
  ((initial ⟨[twins]⟩).run [.create ⟨displayId, 0, Protocol.Core.display, 1⟩ twins 1]).withBytes
    [2, 0, 0, 0, 0, 0, 16, 0, 0, 0, 0, 255, 3, 0, 0, 0, 1, 0, 0]

/-- The first object stays, the connection is in order, and the other bytes are left. -/
theorem absorb_safe_twins :
    halfBorn.Orderly ∧ halfBorn.absorb? = some halfBorn.absorb.value ∧
      halfBorn.absorb.value.Orderly ∧
      (halfBorn.absorb.value.objects.live? 0xff000000).isSome = true ∧
      halfBorn.absorb.value.objects.nextGeneration < UInt64.size ∧
      halfBorn.absorb.value.inbox.bytes = [1, 0, 0] := by
  have orderly : halfBorn.Orderly := (run_orderly _ _ (by decide +kernel)).withBytes _
  obtain ⟨within, _, _, _, _, after⟩ := absorb_safe orderly
  exact ⟨orderly, within, after, by decide +kernel, by decide +kernel, by decide +kernel⟩

end Connection

end Client

end Wayland
