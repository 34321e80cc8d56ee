import Wayland.Proofs.Client.Operations

/-! # From bytes to messages

What the loop behind `absorb` does, as two relations with one rule for each case.

* `Handles` says what one message does to a connection, `handleMessage_handles` that nothing else
  happens.
* `Absorbs` is the loop over the messages at the front of the inbox.  It has no bound on the number
  of turns; `absorbs_iff` says that the bound of `absorb` is never felt.

Proofs about incoming messages go by cases on `Handles` and by induction on `Absorbs`.
-/

namespace Wayland

/-! ## The front of some bytes -/

namespace Wire

theorem readWord_append {bytes rest : Bytes} {word : UInt32}
    (read : readWord bytes = .ok (word, rest)) (more : Bytes) :
    readWord (bytes ++ more) = .ok (word, rest ++ more) := by
  match bytes, read with
  | _ :: _ :: _ :: _ :: _, read =>
    cases read
    rfl

theorem readHeader_append {bytes : Bytes} {header : Header} (read : readHeader bytes = .ok header)
    (more : Bytes) : readHeader (bytes ++ more) = .ok header := by
  cases first : readWord bytes with
  | error cause => simp [readHeader, first, bind, Except.bind] at read
  | ok result =>
    obtain ⟨object, rest⟩ := result
    cases second : readWord rest with
    | error cause => simp [readHeader, first, second, bind, Except.bind] at read
    | ok result =>
      obtain ⟨word, rest'⟩ := result
      simpa [readHeader, first, second, readWord_append first more, readWord_append second more,
        bind, Except.bind] using read

end Wire

/-! ## Descriptors -/

namespace Message

theorem readArgument_suffix (name : String) (kind : ArgKind) (d : Wire.Decoder) (fds : List Fd) :
    (readArgument name kind d fds).2 <:+ fds := by
  unfold readArgument
  split
  · split
    · exact List.suffix_rfl
    · exact List.suffix_cons _ _
  · split
    · exact List.suffix_rfl
    · split <;> exact List.suffix_rfl

theorem readArguments_suffix (name : String) (index : Nat) (specs : List ArgSpec)
    (d : Wire.Decoder) (fds : List Fd) : (readArguments name index specs d fds).2 <:+ fds := by
  induction specs generalizing index d fds with
  | nil => exact List.suffix_rfl
  | cons spec specs ih =>
    have first := readArgument_suffix name spec.kind d fds
    unfold readArguments
    generalize readArgument name spec.kind d fds = outcome at first ⊢
    obtain ⟨_ | ⟨arg, d⟩, left⟩ := outcome
    · exact first
    · dsimp only
      split
      · exact first
      · have others := ih (index + 1) d left
        generalize readArguments name (index + 1) specs d left = outcome at others ⊢
        obtain ⟨_ | _, rest⟩ := outcome <;> exact others.trans first

/-- An event takes its descriptors from the front, whether or not it can be read. -/
theorem demarshal_suffix (spec : MessageSpec) (body : Wire.Bytes) (fds : List Fd) :
    (demarshal spec body fds).2 <:+ fds := by
  unfold demarshal
  split
  · exact List.suffix_rfl
  next sig _ =>
    have read := readArguments_suffix spec.name 0 sig.args { bytes := body } fds
    generalize readArguments spec.name 0 sig.args { bytes := body } fds = outcome at read ⊢
    obtain ⟨_ | _, left⟩ := outcome
    · exact read
    · dsimp only
      split <;> exact read

end Message

namespace Client

namespace Front

theorem of_message {bytes body rest : Wire.Bytes} {header : Wire.Header} :
    Front.of bytes = .message header body rest ↔
      Wire.readHeader bytes = .ok header ∧ 8 ≤ header.size.toNat ∧ header.size.toNat % 4 = 0 ∧
        header.size.toNat ≤ bytes.length ∧ body = (bytes.take header.size.toNat).drop 8 ∧
          rest = bytes.drop header.size.toNat := by
  cases read : Wire.readHeader bytes with
  | error cause => simp [Front.of, read]
  | ok found =>
    constructor
    · intro front
      simp only [Front.of, read] at front
      split at front
      · cases front
      next good =>
        simp only [Bool.or_eq_true, decide_eq_true_eq] at good
        unfold Wire.headerSize at good
        split at front
        · cases front
        next enough =>
          cases front
          rw [List.length_take] at enough
          exact ⟨rfl, by omega, by omega, by omega, rfl, rfl⟩
    · rintro ⟨same, low, aligned, long, rfl, rfl⟩
      simp only [Except.ok.injEq] at same
      subst same
      have good : ¬ (found.size.toNat < Wire.headerSize || found.size.toNat % 4 ≠ 0) = true := by
        simp only [Bool.or_eq_true, decide_eq_true_eq]
        unfold Wire.headerSize
        omega
      simp only [Front.of, read]
      rw [if_neg good, if_neg (by simp; omega)]
      rfl

theorem of_append_message {bytes body rest : Wire.Bytes} {header : Wire.Header}
    (front : Front.of bytes = .message header body rest) (more : Wire.Bytes) :
    Front.of (bytes ++ more) = .message header body (rest ++ more) := by
  obtain ⟨read, low, aligned, long, rfl, rfl⟩ := of_message.1 front
  refine of_message.2 ⟨Wire.readHeader_append read more, low, aligned, ?_, ?_, ?_⟩
  · simp; omega
  · rw [List.take_append_of_le_length long]
  · rw [List.drop_append_of_le_length long]

theorem of_append_malformed {bytes : Wire.Bytes} {header : Wire.Header}
    (front : Front.of bytes = .malformed header) (more : Wire.Bytes) :
    Front.of (bytes ++ more) = .malformed header := by
  cases read : Wire.readHeader bytes with
  | error cause => simp [Front.of, read] at front
  | ok found =>
    simp only [Front.of, read] at front
    split at front
    next bad =>
      cases front
      simp only [Front.of, Wire.readHeader_append read more]
      rw [if_pos bad]
    · split at front <;> cases front

theorem length_rest_lt {bytes body rest : Wire.Bytes} {header : Wire.Header}
    (front : Front.of bytes = .message header body rest) : rest.length < bytes.length := by
  obtain ⟨_, low, _, long, _, rfl⟩ := of_message.1 front
  simp
  omega

theorem of_nil : Front.of [] = .incomplete := rfl

end Front

/-! ## One message -/

namespace Connection

variable {δ : Type} {c c' d : Connection δ}

theorem fail_value (c : Connection δ) (error : FatalError) :
    (c.fail error).value = { c with error := some (FatalError.record c.error error) } := by
  unfold fail
  dsimp only
  split
  next same => rw [same]; rfl
  · rfl

@[simp] theorem fail_error (c : Connection δ) (error : FatalError) :
    (c.fail error).value.error = some (FatalError.record c.error error) := by
  rw [fail_value]

/-- The connection with other bytes still to be handled. -/
def withBytes (c : Connection δ) (bytes : Wire.Bytes) : Connection δ :=
  { c with inbox := { c.inbox with bytes } }

@[simp] theorem withBytes_error (bytes : Wire.Bytes) : (c.withBytes bytes).error = c.error := rfl

/-- The connection with other descriptors waiting for their events. -/
def withFds (c : Connection δ) (fds : List Fd) : Connection δ :=
  { c with inbox := { c.inbox with fds } }

/-- How many descriptors are thrown away with an event of a zombie. -/
def swallowedFds (spec : MessageSpec) : Nat :=
  match Message.signature spec with
  | .ok sig => sig.fdCount
  | .error _ => 0

/-- What one message does to a connection, and the fault that ends the connection if there is
    one. -/
inductive Handles (c : Connection δ) (header : Wire.Header) (body : Wire.Bytes) :
    Option FatalError → Connection δ → Prop
  | noDisplayEvent (display : header.object = displayId)
      (unknown : Protocol.Core.display.event? header.opcode = none) :
    Handles c header body (some (.malformed (.noDisplayEvent header.opcode))) c
  | badDisplayEvent {spec : MessageSpec} {cause : MessageError} {fds : List Fd}
      (display : header.object = displayId)
      (known : Protocol.Core.display.event? header.opcode = some spec)
      (read : Message.demarshal spec body c.inbox.fds = (.error cause, fds)) :
    Handles c header body (some (.malformed (.displayEvent spec.name cause))) (c.withFds fds)
  /-- The compositor reports an error. -/
  | report {spec : MessageSpec} {object : Option ObjectId} {code : UInt32} {message : String}
      {fds : List Fd} (display : header.object = displayId)
      (opcode : header.opcode = Protocol.Core.errorEvent)
      (known : Protocol.Core.display.event? header.opcode = some spec)
      (read : Message.demarshal spec body c.inbox.fds =
        (.ok [.object object, .uint code, .str (some message)], fds)) :
    Handles c header body none
      { c.withFds fds with
        error := some (FatalError.record c.error (.protocol
          { object := object.getD 0
            interface := ((c.objects.get? (object.getD 0)).map (·.interface.name)).getD "unknown"
            code, message })) }
  | deleteId {spec : MessageSpec} {id : ObjectId} {fds : List Fd}
      (display : header.object = displayId) (opcode : header.opcode = Protocol.Core.deleteIdEvent)
      (known : Protocol.Core.display.event? header.opcode = some spec)
      (read : Message.demarshal spec body c.inbox.fds = (.ok [.uint id], fds)) :
    Handles c header body none
      { c.withFds fds with objects := (c.objects.deleteId id).value }
  | ignored {spec : MessageSpec} {args : List Argument} {fds : List Fd}
      (display : header.object = displayId)
      (known : Protocol.Core.display.event? header.opcode = some spec)
      (read : Message.demarshal spec body c.inbox.fds = (.ok args, fds))
      (noReport : ∀ object code message, header.opcode = Protocol.Core.errorEvent →
        args ≠ [.object object, .uint code, .str (some message)])
      (noNumber : ∀ id, header.opcode = Protocol.Core.deleteIdEvent → args ≠ [.uint id]) :
    Handles c header body none (c.withFds fds)
  | unknown (other : header.object ≠ displayId) (absent : c.objects.get? header.object = none) :
    Handles c header body none c
  | noEvent {entry : Entry δ} (other : header.object ≠ displayId)
      (found : c.objects.get? header.object = some entry)
      (unknown : entry.interface.event? header.opcode = none) :
    Handles c header body
      (some (.malformed (.noEvent entry.interface.name header.object header.opcode))) c
  /-- The event of a zombie takes its descriptors with it. -/
  | swallowed {entry : Entry δ} {spec : MessageSpec} (other : header.object ≠ displayId)
      (found : c.objects.get? header.object = some entry)
      (known : entry.interface.event? header.opcode = some spec) (dead : entry.life = .zombie) :
    Handles c header body none (c.withFds (c.inbox.fds.drop (swallowedFds spec)))
  | badEvent {entry : Entry δ} {spec : MessageSpec} {cause : MessageError} {fds : List Fd}
      (other : header.object ≠ displayId) (found : c.objects.get? header.object = some entry)
      (known : entry.interface.event? header.opcode = some spec) (live : entry.life = .live)
      (read : Message.demarshal spec body c.inbox.fds = (.error cause, fds)) :
    Handles c header body
      (some (.malformed (.event entry.interface.name header.object spec.name cause)))
      (c.withFds fds)
  /-- The event creates an object under a number that the compositor may not use. -/
  | conflict {entry : Entry δ} {spec : MessageSpec} {args : List Argument} {fds : List Fd}
      {cause : NumberConflict} {objects : ObjectTable δ}
      (other : header.object ≠ displayId) (found : c.objects.get? header.object = some entry)
      (known : entry.interface.event? header.opcode = some spec) (live : entry.life = .live)
      (read : Message.demarshal spec body c.inbox.fds = (.ok args, fds))
      (entered : (enterNewObjects c.protocol header.object entry spec 0 args c.objects).value =
        (some cause, objects)) :
    Handles c header body (some (.malformed (.newObject cause))) { c.withFds fds with objects }
  | queued {entry : Entry δ} {spec : MessageSpec} {args : List Argument} {fds : List Fd}
      {objects : ObjectTable δ}
      (other : header.object ≠ displayId) (found : c.objects.get? header.object = some entry)
      (known : entry.interface.event? header.opcode = some spec) (live : entry.life = .live)
      (read : Message.demarshal spec body c.inbox.fds = (.ok args, fds))
      (entered : (enterNewObjects c.protocol header.object entry spec 0 args c.objects).value =
        (none, objects)) :
    Handles c header body none
      { c.withFds fds with
        objects
        queues := (c.queues.push
          (if c.queues.contains entry.queue then entry.queue else QueueId.default)
          { sender := header.object, generation := entry.generation, opcode := header.opcode
            args }).value }

theorem handleMessage_handles (c : Connection δ) (header : Wire.Header) (body : Wire.Bytes) :
    Handles c header body (c.handleMessage header body).value.1
      (c.handleMessage header body).value.2 := by
  unfold handleMessage
  split
  next display =>
    unfold handleDisplayEvent
    split
    next unknown => exact .noDisplayEvent display unknown
    next spec known =>
      cases read : Message.demarshal spec body c.inbox.fds with
      | mk result fds =>
        dsimp only
        split
        next cause => exact .badDisplayEvent display known read
        next args =>
          split
          next opcode =>
            simp only [Logged.value_bind, Logged.value_pure, fail_value]
            exact .report display opcode known read
          next opcode => exact .deleteId display opcode known read
          next noReport noNumber => exact .ignored display known read noReport noNumber
  next other =>
    unfold handleObjectEvent
    split
    next absent => exact .unknown other absent
    next entry found =>
      dsimp only
      split
      next unknown => exact .noEvent other found unknown
      next spec known =>
        split
        next dead => exact .swallowed other found known dead
        next live =>
          cases read : Message.demarshal spec body c.inbox.fds with
          | mk result fds =>
            dsimp only
            split
            next cause => exact .badEvent other found known live read
            next args =>
              rw [Logged.value_bind]
              cases entered :
                  (enterNewObjects c.protocol header.object entry spec 0 args c.objects).value with
              | mk conflict objects =>
                cases conflict with
                | some cause => exact .conflict other found known live read entered
                | none => exact .queued other found known live read entered

theorem Handles.value {header : Wire.Header} {body : Wire.Bytes} {fault : Option FatalError}
    (handles : Handles c header body fault c') :
    (c.handleMessage header body).value = (fault, c') := by
  cases handles with
  | noDisplayEvent display unknown => simp [handleMessage, handleDisplayEvent, display, unknown]
  | badDisplayEvent display known read =>
    simp [handleMessage, handleDisplayEvent, display, known, read, withFds]
  | report display opcode known read =>
    rw [opcode] at known
    simp only [handleMessage, handleDisplayEvent, display, if_true, opcode, known, read]
    exact congrArg (Prod.mk none) (fail_value _ _)
  | deleteId display opcode known read =>
    rw [opcode] at known
    simp only [handleMessage, handleDisplayEvent, display, if_true, opcode, known, read]
    rfl
  | ignored display known read noReport noNumber =>
    simp only [handleMessage, handleDisplayEvent, display, if_true, known, read, Logged.value_bind]
    split
    next opcode => exact absurd rfl (noReport _ _ _ opcode)
    next opcode => exact absurd rfl (noNumber _ opcode)
    next => rfl
  | unknown other absent => simp [handleMessage, handleObjectEvent, other, absent]
  | noEvent other found unknown => simp [handleMessage, handleObjectEvent, other, found, unknown]
  | swallowed other found known dead =>
    simp only [handleMessage, handleObjectEvent, other, if_false, found, known, dead]
    rfl
  | badEvent other found known live read =>
    simp [handleMessage, handleObjectEvent, other, found, known, live, read, withFds]
  | conflict other found known live read entered =>
    simp [handleMessage, handleObjectEvent, other, found, known, live, read, entered, withFds]
  | queued other found known live read entered =>
    simp [handleMessage, handleObjectEvent, other, found, known, live, read, entered, withFds]

section

variable {header : Wire.Header} {body : Wire.Bytes} {fault : Option FatalError}

/-- The bytes behind a message have no part in how it is handled. -/
theorem Handles.withBytes (handles : Handles c header body fault c') (bytes : Wire.Bytes) :
    Handles (c.withBytes bytes) header body fault (c'.withBytes bytes) := by
  cases handles with
  | noDisplayEvent display unknown => exact .noDisplayEvent display unknown
  | badDisplayEvent display known read => exact .badDisplayEvent display known read
  | report display opcode known read => exact .report display opcode known read
  | deleteId display opcode known read => exact .deleteId display opcode known read
  | ignored display known read noReport noNumber =>
    exact .ignored display known read noReport noNumber
  | unknown other absent => exact .unknown other absent
  | noEvent other found unknown => exact .noEvent other found unknown
  | swallowed other found known dead => exact .swallowed other found known dead
  | badEvent other found known live read => exact .badEvent other found known live read
  | conflict other found known live read entered =>
    exact .conflict other found known live read entered
  | queued other found known live read entered => exact .queued other found known live read entered

theorem Handles.bytes (handles : Handles c header body fault c') :
    c'.inbox.bytes = c.inbox.bytes := by
  cases handles <;> rfl

theorem Handles.fds (handles : Handles c header body fault c') :
    c'.inbox.fds <:+ c.inbox.fds := by
  have taken {spec : MessageSpec} {result : Except MessageError (List Argument)} {fds : List Fd}
      (read : Message.demarshal spec body c.inbox.fds = (result, fds)) : fds <:+ c.inbox.fds := by
    have suffix := Message.demarshal_suffix spec body c.inbox.fds
    rwa [read] at suffix
  cases handles with
  | noDisplayEvent | unknown | noEvent => exact List.suffix_rfl
  | swallowed => exact List.drop_suffix _ _
  | badDisplayEvent _ _ read | report _ _ _ read | deleteId _ _ _ read | ignored _ _ read
  | badEvent _ _ _ _ read | conflict _ _ _ _ read | queued _ _ _ _ read => exact taken read

/-- A message can only add an error of the compositor to the one on record. -/
theorem Handles.error (handles : Handles c header body fault c') :
    c'.error = c.error ∨
      ∃ error, c'.error = some (FatalError.record c.error (.protocol error)) := by
  cases handles with
  | report => exact .inr ⟨_, rfl⟩
  | _ => exact .inl rfl

end

/-! ## The loop -/

/-- The loop that handles complete messages, with one rule for each way in which a turn ends. -/
inductive Absorbs : Connection δ → Connection δ → Prop
  | incomplete {c : Connection δ} (front : Front.of c.inbox.bytes = .incomplete) : Absorbs c c
  | malformed {c : Connection δ} {header : Wire.Header}
      (front : Front.of c.inbox.bytes = .malformed header) :
    Absorbs c (c.fail (.malformed (.size header.object header.size.toNat))).value
  | fault {c c' : Connection δ} {header : Wire.Header} {body rest : Wire.Bytes}
      {error : FatalError} (front : Front.of c.inbox.bytes = .message header body rest)
      (handled : Handles (c.withBytes rest) header body (some error) c') :
    Absorbs c (c'.fail error).value
  | message {c c' d : Connection δ} {header : Wire.Header} {body rest : Wire.Bytes}
      (front : Front.of c.inbox.bytes = .message header body rest)
      (handled : Handles (c.withBytes rest) header body none c') (others : Absorbs c' d) :
      Absorbs c d

theorem Handles.unique {header : Wire.Header} {body : Wire.Bytes} {fault fault' : Option FatalError}
    (handles : Handles c header body fault c') (other : Handles c header body fault' d) :
    fault = fault' ∧ c' = d := by
  have same := handles.value.symm.trans other.value
  simpa using same

theorem Absorbs.unique (run : Absorbs c d) (other : Absorbs c c') : d = c' := by
  induction run generalizing c' with
  | incomplete front =>
    cases other with
    | incomplete => rfl
    | malformed front' => simp [front] at front'
    | fault front' => simp [front] at front'
    | message front' => simp [front] at front'
  | malformed front =>
    cases other with
    | incomplete front' => simp [front] at front'
    | malformed front' =>
      rw [front] at front'
      cases front'
      rfl
    | fault front' => simp [front] at front'
    | message front' => simp [front] at front'
  | fault front handled =>
    cases other with
    | incomplete front' => simp [front] at front'
    | malformed front' => simp [front] at front'
    | fault front' handled' =>
      rw [front] at front'
      cases front'
      obtain ⟨same, rfl⟩ := handled.unique handled'
      cases same
      rfl
    | message front' handled' =>
      rw [front] at front'
      cases front'
      cases (handled.unique handled').1
  | message front handled _ ih =>
    cases other with
    | incomplete front' => simp [front] at front'
    | malformed front' => simp [front] at front'
    | fault front' handled' =>
      rw [front] at front'
      cases front'
      cases (handled.unique handled').1
    | message front' handled' others' =>
      rw [front] at front'
      cases front'
      obtain ⟨_, rfl⟩ := handled.unique handled'
      exact ih others'

/-- As many turns as there are bytes are enough. -/
theorem absorbUpTo_absorbs {fuel : Nat} (enough : c.inbox.bytes.length ≤ fuel) :
    Absorbs c (absorbUpTo fuel c).value := by
  induction fuel generalizing c with
  | zero =>
    have empty : c.inbox.bytes = [] := List.eq_nil_of_length_eq_zero (by omega)
    exact .incomplete (by rw [empty]; exact Front.of_nil)
  | succ fuel ih =>
    unfold absorbUpTo
    split
    next front => exact .incomplete front
    next header front => exact .malformed front
    next header body rest front =>
      have shorter := Front.length_rest_lt front
      have handled := handleMessage_handles (c.withBytes rest) header body
      have left : _ = rest := handled.bytes
      have fewer : ((c.withBytes rest).handleMessage header body).value.2.inbox.bytes.length ≤
          fuel := by
        rw [left]
        omega
      rw [Logged.value_bind]
      dsimp only
      split
      next error fault => exact .fault front (fault ▸ handled)
      next fault => exact .message front (fault ▸ handled) (ih fewer)

theorem absorbs_iff : Absorbs c d ↔ c.absorb.value = d := by
  have run : Absorbs c c.absorb.value := absorbUpTo_absorbs (Nat.le_refl _)
  constructor
  · exact run.unique
  · rintro rfl
    exact run

theorem absorb_absorbs (c : Connection δ) : Absorbs c c.absorb.value := absorbs_iff.2 rfl

end Connection

/-! ## What the socket gives -/

namespace ReadOutcome

/-- The bytes of an answer. -/
def bytes : ReadOutcome → Wire.Bytes
  | .received bytes _ => bytes
  | _ => []

/-- The descriptors of an answer. -/
def fds : ReadOutcome → List Fd
  | .received _ fds => fds
  | _ => []

/-- The socket has no more to give at present. -/
def isLast : ReadOutcome → Bool
  | .received _ _ | .interrupted => false
  | .hungUp | .wouldBlock | .failed _ => true

/-- The answers that a reader takes from the socket: those up to the first that says that there is
    no more, as long as less than the budget has come.  `total` counts what has come before. -/
def taken (total : Nat) : List ReadOutcome → List ReadOutcome
  | [] => []
  | answer :: answers =>
    if Inbox.readBudget ≤ total then []
    else answer :: if answer.isLast then [] else taken (total + answer.bytes.length) answers

theorem taken_prefix (total : Nat) (answers : List ReadOutcome) :
    taken total answers <+: answers := by
  induction answers generalizing total with
  | nil => exact List.prefix_rfl
  | cons answer answers ih =>
    unfold taken
    split
    · exact List.nil_prefix
    · refine (List.prefix_cons_inj answer).2 ?_
      split
      · exact List.nil_prefix
      · exact ih _

end ReadOutcome

/-- A reader appends what the socket gives to the inbox, answer by answer, and counts the bytes and
    the answers. -/
theorem Inbox.gather_eq (inbox : Inbox) (total used : Nat) (answers : List ReadOutcome) :
    let taken := ReadOutcome.taken total answers
    let gathered := inbox.gather total used answers
    gathered.inbox.bytes = inbox.bytes ++ taken.flatMap ReadOutcome.bytes ∧
      gathered.inbox.fds = inbox.fds ++ taken.flatMap ReadOutcome.fds ∧
      gathered.total = total + (taken.flatMap ReadOutcome.bytes).length ∧
      gathered.used = used + taken.length := by
  induction answers generalizing inbox total used with
  | nil => simp [ReadOutcome.taken, gather]
  | cons answer answers ih =>
    unfold ReadOutcome.taken gather
    by_cases full : readBudget ≤ total
    · simp [full]
    · rw [if_neg full, if_neg full]
      cases answer with
      | received bytes fds =>
        obtain ⟨isBytes, isFds, isTotal, isUsed⟩ :=
          ih { bytes := inbox.bytes ++ bytes, fds := inbox.fds ++ fds } (total + bytes.length)
            (used + 1)
        simp [ReadOutcome.isLast, ReadOutcome.bytes, ReadOutcome.fds, isBytes, isFds, isTotal,
          isUsed]
        omega
      | interrupted =>
        obtain ⟨isBytes, isFds, isTotal, isUsed⟩ := ih inbox total (used + 1)
        simp [ReadOutcome.isLast, ReadOutcome.bytes, ReadOutcome.fds, isBytes, isFds, isTotal,
          isUsed]
        omega
      | hungUp | wouldBlock | failed =>
        simp [ReadOutcome.isLast, ReadOutcome.bytes, ReadOutcome.fds]

/-! ## Rounds -/

namespace Connection

variable {δ : Type} {c : Connection δ}

/-- What the socket gave is absorbed; a fault of the socket is recorded before, the end of the
    stream afterwards. -/
theorem readSocket_value (c : Connection δ) (outcomes : List ReadOutcome) :
    ∃ error d error',
      Absorbs { c with inbox := (c.inbox.gather 0 0 outcomes).inbox, error } d ∧
      (c.readSocket outcomes).value =
        ({ d with error := error' }.check.map fun _ => (c.inbox.gather 0 0 outcomes).total,
          (c.inbox.gather 0 0 outcomes).used, { d with error := error' }) := by
  cases fault : (c.inbox.gather 0 0 outcomes).fault <;>
    cases hungUp : (c.inbox.gather 0 0 outcomes).hungUp <;>
    simp only [readSocket, fault, hungUp, Logged.value_bind, Logged.value_pure, fail_value,
      Bool.false_eq_true, if_false, if_true]
  all_goals exact ⟨_, _, _, absorb_absorbs _, rfl⟩

theorem readRound_of_error {cause : ClientError} (unusable : c.check = .error cause)
    (outcomes : List ReadOutcome) :
    (c.readRound outcomes).value =
      (.error cause, 0, { c with gate := c.gate.finishRound }) := by
  simp [readRound, unusable]

theorem readRound_of_ok (usable : c.check = .ok ()) (outcomes : List ReadOutcome) :
    (c.readRound outcomes).value = ((c.readSocket outcomes).value.1,
      (c.readSocket outcomes).value.2.1,
      { (c.readSocket outcomes).value.2.2 with
        gate := (c.readSocket outcomes).value.2.2.gate.finishRound }) := by
  simp only [readRound, usable, Logged.value_bind]
  split <;> rfl

end Connection

end Client

end Wayland
