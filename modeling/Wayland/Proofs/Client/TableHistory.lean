import Wayland.Proofs.Client.ObjectTable
import Wayland.Proofs.Client.Run

/-! # What happens to numbers in a run

A `Happening` is what matters for the life of a number: a new object gets it, a request tells the
compositor of it, the compositor lets go of it.  `Step.happenings` reads happenings off a step of
a run: off the object that a creation returns, off the arguments of an accepted request, and off
the notes of a read, which has one for each `delete_id`.

A step works on the table of objects through a list of operations, and the operations have the
same happenings as the step (`Step.Effect.reaches`).  Only closing is different, and after that
nothing happens any more.
-/

namespace Wayland.Client

variable {δ : Type}

/-- What matters for the life of a number. -/
inductive Happening
  | created (id : ObjectId) (generation : Generation)
  /-- The number of an object stood in a request as that of a new one. -/
  | announced (id : ObjectId) (generation : Generation)
  | deleted (id : ObjectId)
  deriving DecidableEq

/-- The `delete_id` that a note tells of. -/
def Note.happening? : Note → Option Happening
  | .event interface sender name [.uint id] =>
    if interface = "wl_display" ∧ sender = displayId ∧ name = "delete_id" then some (.deleted id)
    else none
  | _ => none

namespace ObjectTable

/-- The compositor hears of a number, if there is an object with it. -/
def announcement (t : ObjectTable δ) (id : ObjectId) : Option Happening :=
  (t.get? id).map fun entry => .announced id entry.generation

/-- What happens to numbers in an operation. -/
def Op.happenings (t : ObjectTable δ) : Op δ → List Happening
  | .insertClient interface version queue =>
    match t.insertClient interface version queue with
    | .ok (id, generation, _) => [.created id generation]
    | .error _ => []
  | .markAnnounced id => (t.announcement id).toList
  | .deleteId id => [.deleted id]
  | _ => []

/-- What happens to numbers in operations one after the other. -/
def history : ObjectTable δ → List (Op δ) → List Happening
  | _, [] => []
  | t, op :: ops => op.happenings t ++ history (op.apply t) ops

/-- Operations lead from one table to another, and this is what happens to numbers on the way. -/
def Reaches (t t' : ObjectTable δ) (happenings : List Happening) : Prop :=
  ∃ ops, t.applyAll ops = t' ∧ t.history ops = happenings

section

variable {t t' t'' : ObjectTable δ} {past future : List Happening}

theorem history_append (ops more : List (Op δ)) :
    t.history (ops ++ more) = t.history ops ++ (t.applyAll ops).history more := by
  induction ops generalizing t with
  | nil => rfl
  | cons op ops ih => simp [history, applyAll, ih]

theorem Reaches.refl : t.Reaches t [] := ⟨[], rfl, rfl⟩

theorem Reaches.trans (first : t.Reaches t' past) (second : t'.Reaches t'' future) :
    t.Reaches t'' (past ++ future) := by
  obtain ⟨ops, rfl, rfl⟩ := first
  obtain ⟨more, rfl, rfl⟩ := second
  exact ⟨ops ++ more, List.foldl_append, history_append ops more⟩

theorem Reaches.op (op : Op δ) : t.Reaches (op.apply t) (op.happenings t) :=
  ⟨[op], rfl, List.append_nil _⟩

theorem Reaches.release (id : ObjectId) (generation : Generation) :
    t.Reaches (t.release id generation).value [] :=
  Reaches.op (.release id generation)

theorem Reaches.deleteId (id : ObjectId) : t.Reaches (t.deleteId id).value [.deleted id] :=
  Reaches.op (.deleteId id)

theorem Reaches.insertClient {id : ObjectId} {generation : Generation} {interface : Interface}
    {version : UInt32} {queue : QueueId}
    (inserted : t.insertClient interface version queue = .ok (id, generation, t')) :
    t.Reaches t' [.created id generation] := by
  have entered := Reaches.op (t := t) (.insertClient interface version queue)
  simpa only [Op.apply, Op.happenings, inserted] using entered

theorem Reaches.insertServer {id : ObjectId} {interface : Interface} {version : UInt32}
    {queue : QueueId} (inserted : t.insertServer id interface version queue = .ok t') :
    t.Reaches t' [] := by
  have entered := Reaches.op (t := t) (.insertServer id interface version queue)
  simpa only [Op.apply, Op.happenings, inserted] using entered

theorem Reaches.put {id : ObjectId} {generation : Generation} {entry : Entry δ}
    (found : t.current? id generation = some entry) (data : Option δ) (owned : Bool)
    (queue : QueueId) : t.Reaches (t.put id { entry with data, owned, queue }) [] := by
  have amended := Reaches.op (t := t) (.amend id generation data owned queue)
  simpa only [Op.apply, Op.happenings, found] using amended

theorem announcement_markAnnounced (id : ObjectId) :
    (t.markAnnounced id).announcement = t.announcement := by
  funext x
  simp only [announcement, get?_markAnnounced]
  split
  · simp [Option.map_map, Function.comp_def]
  · rfl

theorem Reaches.markAnnounced (ids : List ObjectId) :
    t.Reaches (ids.foldl ObjectTable.markAnnounced t) (ids.filterMap t.announcement) := by
  induction ids generalizing t with
  | nil => exact Reaches.refl
  | cons id ids ih =>
    have first := Reaches.op (t := t) (.markAnnounced id)
    have rest := ih (t := t.markAnnounced id)
    rw [announcement_markAnnounced] at rest
    have both := first.trans rest
    cases heard : t.announcement id with
    | none => simpa [Op.happenings, heard] using both
    | some happening => simpa [Op.happenings, heard] using both

/-- What has been shown of sound tables holds wherever operations lead. -/
theorem Reaches.sound (reaches : t.Reaches t' past) (sound : t.Sound) : t'.Sound := by
  obtain ⟨ops, rfl, _⟩ := reaches
  exact applyAll_sound ops sound

end

end ObjectTable

/-- That the number is let go is told by whoever reads the event. -/
theorem deleteId_quiet (t : ObjectTable δ) (id : ObjectId) :
    (t.deleteId id).notes.filterMap Note.happening? = [] := by
  unfold ObjectTable.deleteId
  split
  · rfl
  · split <;> rfl

/-! ## Reading

The notes of a read are compared with what it does to the table, from `fail` at the bottom to
whole rounds. -/

/-- A computation leads from a table to the one in its result, and its notes tell what happens to
    numbers on the way. -/
def Logged.Leads {α : Type} (x : Logged α) (t : ObjectTable δ) (objects : α → ObjectTable δ) :
    Prop :=
  t.Reaches (objects x.value) (x.notes.filterMap Note.happening?)

section

variable {α β : Type} {t : ObjectTable δ} {objects : α → ObjectTable δ}
  {objects' : β → ObjectTable δ}

theorem Logged.leads_pure {a : α} (same : objects a = t) :
    (pure a : Logged α).Leads t objects := by
  subst same
  exact ObjectTable.Reaches.refl

theorem Logged.Leads.bind {x : Logged α} {f : α → Logged β} (first : x.Leads t objects)
    (rest : ∀ a, (f a).Leads (objects a) objects') : (x >>= f).Leads t objects' := by
  unfold Logged.Leads
  rw [Logged.notes_bind, List.filterMap_append]
  exact first.trans (rest x.value)

theorem Logged.Leads.noted {n : Note} {f : Unit → Logged β} (silent : n.happening? = none)
    (rest : (f ()).Leads t objects') : (Logged.note n >>= f).Leads t objects' := by
  have quiet : (Logged.note n).Leads t fun _ => t := by
    unfold Logged.Leads
    rw [Logged.notes_note, List.filterMap_cons_none silent]
    exact ObjectTable.Reaches.refl
  exact quiet.bind fun _ => rest

end

namespace Connection

theorem fail_leads (c : Connection δ) (error : FatalError) :
    (c.fail error).Leads c.objects (·.objects) := by
  unfold fail
  dsimp only
  split
  · exact Logged.leads_pure rfl
  · exact .noted rfl (Logged.leads_pure rfl)

/-- An event of the display has its name by its opcode. -/
theorem display_event_deleteId {opcode : UInt16} {spec : MessageSpec}
    (known : Protocol.Core.display.event? opcode = some spec) :
    spec.name = "delete_id" ↔ opcode = Protocol.Core.deleteIdEvent := by
  unfold Interface.event? at known
  constructor
  · intro name
    have second : opcode.toNat = 1 := by
      generalize opcode.toNat = index at known ⊢
      obtain _ | _ | index := index
      · cases known
        simp at name
      · rfl
      · cases known
    exact UInt16.toNat_inj.1 second
  · rintro rfl
    cases known
    rfl

theorem handleDisplayEvent_leads (c : Connection δ) (opcode : UInt16) (body : Wire.Bytes) :
    (c.handleDisplayEvent opcode body).Leads c.objects (·.2.objects) := by
  unfold handleDisplayEvent
  split
  · exact Logged.leads_pure rfl
  next spec known =>
    split
    next result fds read =>
    dsimp only
    split
    · exact Logged.leads_pure rfl
    next args =>
      split
      · refine .noted rfl ?_
        exact (fail_leads _ _).bind fun _ => Logged.leads_pure rfl
      next id =>
        have name := (display_event_deleteId known).2 rfl
        have told : (Note.event Protocol.Core.display.name displayId spec.name
            [.uint id]).happening? = some (.deleted id) := by
          rw [name]
          rfl
        have deleted := ObjectTable.Reaches.deleteId (t := c.objects) id
        simpa only [Logged.Leads, Logged.value_bind, Logged.value_pure, Logged.notes_bind,
          Logged.notes_note, Logged.notes_pure, List.append_nil, List.singleton_append,
          List.filterMap_cons_some told, deleteId_quiet] using deleted
      next _ other =>
        -- Any other event of the display is noted, but not as one that carries a number alone.
        refine .noted ?_ (Logged.leads_pure rfl)
        unfold Note.happening?
        split
        next id same =>
          cases same
          refine if_neg ?_
          rintro ⟨_, _, name⟩
          exact other id ((display_event_deleteId known).1 name) rfl
        · rfl

theorem enterNewObjects_leads (protocol : Protocol) (sender : ObjectId) (entry : Entry δ)
    (spec : MessageSpec) (args : List Argument) (index : Nat) (objects : ObjectTable δ) :
    (enterNewObjects protocol sender entry spec index args objects).Leads objects (·.2) := by
  induction args generalizing index objects with
  | nil => exact Logged.leads_pure rfl
  | cons arg args ih =>
    unfold enterNewObjects
    split
    · exact ih _ _
    next id _ =>
      split
      · exact .noted rfl (ih _ _)
      next interface _ =>
        split
        · exact Logged.leads_pure rfl
        next entered inserted =>
          have rest := Logged.Leads.noted (n := .objectCreated interface.name id)
            (f := fun _ => enterNewObjects protocol sender entry spec (index + 1) args entered)
            rfl (ih (index + 1) entered)
          exact (ObjectTable.Reaches.insertServer inserted).trans rest

theorem push_quiet (q : EventQueues) (queue : QueueId) (event : QueuedEvent) :
    (q.push queue event).notes.filterMap Note.happening? = [] := by
  unfold EventQueues.push
  split <;> rfl

theorem handleObjectEvent_leads (c : Connection δ) (id : ObjectId) (opcode : UInt16)
    (body : Wire.Bytes) : (c.handleObjectEvent id opcode body).Leads c.objects (·.2.objects) := by
  unfold handleObjectEvent
  split
  · exact .noted rfl (Logged.leads_pure rfl)
  next entry _ =>
    dsimp only
    split
    · exact Logged.leads_pure rfl
    next spec _ =>
      split
      · exact .noted rfl (Logged.leads_pure rfl)
      · split
        · exact Logged.leads_pure rfl
        next args _ =>
          refine (enterNewObjects_leads c.protocol id entry spec args 0 c.objects).bind ?_
          rintro ⟨conflict, objects⟩
          cases conflict with
          | some cause => exact Logged.leads_pure rfl
          | none =>
            have pushed : (c.queues.push
                (if c.queues.contains entry.queue then entry.queue else QueueId.default)
                { sender := id, generation := entry.generation, opcode, args }).Leads objects
                  fun _ => objects := by
              unfold Logged.Leads
              rw [push_quiet]
              exact ObjectTable.Reaches.refl
            exact pushed.bind fun _ => Logged.leads_pure rfl

theorem handleMessage_leads (c : Connection δ) (header : Wire.Header) (body : Wire.Bytes) :
    (c.handleMessage header body).Leads c.objects (·.2.objects) := by
  unfold handleMessage
  split
  · exact handleDisplayEvent_leads c header.opcode body
  · exact handleObjectEvent_leads c header.object header.opcode body

theorem absorbUpTo_leads (fuel : Nat) (c : Connection δ) :
    (absorbUpTo fuel c).Leads c.objects (·.objects) := by
  induction fuel generalizing c with
  | zero => exact Logged.leads_pure rfl
  | succ fuel ih =>
    unfold absorbUpTo
    split
    · exact Logged.leads_pure rfl
    · exact fail_leads _ _
    next header body rest _ =>
      refine (handleMessage_leads { c with inbox := { c.inbox with bytes := rest } } header
        body).bind ?_
      rintro ⟨fault, c⟩
      cases fault with
      | some error => exact fail_leads c error
      | none => exact ih c

theorem readSocket_leads (c : Connection δ) (outcomes : List ReadOutcome) :
    (c.readSocket outcomes).Leads c.objects (·.2.2.objects) := by
  unfold readSocket
  -- Whether or not the socket failed, what it gave before is handled in the same way.
  have handled (total used : Nat) (hungUp : Bool) (c : Connection δ) :
      (do
        let c ← c.absorb
        let c ← if hungUp then c.fail .disconnected else pure c
        return (c.check.map fun _ => total, used, c) :
        Logged (Except ClientError Nat × Nat × Connection δ)).Leads c.objects (·.2.2.objects) := by
    refine (absorbUpTo_leads _ c).bind fun c => ?_
    cases hungUp with
    | true => exact (fail_leads c _).bind fun _ => Logged.leads_pure rfl
    | false => exact Logged.leads_pure rfl
  dsimp only
  split
  · exact (fail_leads _ _).bind (handled _ _ _)
  · exact handled _ _ _ _

theorem readRound_leads (c : Connection δ) (outcomes : List ReadOutcome) :
    (c.readRound outcomes).Leads c.objects (·.2.2.objects) := by
  unfold readRound
  split
  · exact Logged.leads_pure rfl
  · refine (readSocket_leads c outcomes).bind ?_
    rintro ⟨result, used, c⟩
    cases result with
    | ok count => exact .noted rfl (Logged.leads_pure rfl)
    | error cause => exact Logged.leads_pure rfl

end Connection

/-! ## Steps -/

/-- What a step shows of the life of numbers. -/
def Step.happenings (s : Step δ) : List Happening :=
  match s.action with
  | .create .. => s.report.object.toList.map fun o => .created o.id o.generation
  | .request _ _ args _ _ =>
    match s.report.refused with
    | none => (args.filterMap Argument.newId?).filterMap s.before.objects.announcement
    | some _ => []
  | .read _ => s.notes.filterMap Note.happening?
  | _ => []

open ObjectTable (Reaches)

theorem Connection.readRound_of_closed {c : Connection δ} (closed : c.closed = true)
    (outcomes : List ReadOutcome) :
    c.readRound outcomes =
      pure (.error .disconnected, 0, { c with gate := c.gate.finishRound }) := by
  simp only [Connection.readRound, Connection.check_of_closed closed]

theorem Step.happenings_of_refused {c c' : Connection δ} {action : Action δ} {cause : ClientError}
    {notes : List Note} (noRead : ∀ outcomes, action ≠ .read outcomes) :
    Step.happenings ⟨c, action, { refused := some cause }, notes, c'⟩ = [] := by
  cases action with
  | read outcomes => exact absurd rfl (noRead outcomes)
  | _ => rfl

/-- Once a connection is closed it stays so, and nothing happens to numbers any more. -/
theorem Step.Effect.of_closed {s : Step δ} (effect : s.Effect) (closed : s.before.closed = true) :
    s.after.closed = true ∧ s.happenings = [] := by
  have unusable {P : Prop} (usable : s.before.check = .ok ()) : P := by
    rw [Connection.check_of_closed closed] at usable
    cases usable
  cases effect with
  | refused noRead => exact ⟨closed, happenings_of_refused noRead⟩
  | create usable => exact unusable usable
  | adopt usable => exact unusable usable
  | release => exact ⟨closed, rfl⟩
  | request usable => exact unusable usable
  | flush usable => exact unusable usable
  | attach usable => exact unusable usable
  | attachAgain => exact ⟨closed, rfl⟩
  | setQueue usable => exact unusable usable
  | createQueue usable => exact unusable usable
  | destroyQueue => exact ⟨closed, rfl⟩
  | prepareRead usable => exact unusable usable
  | @read c outcomes _ gate =>
    have round := Connection.readRound_of_closed (c := { c with gate }) closed outcomes
    simp only [happenings, round]
    exact ⟨closed, rfl⟩
  | withdraw => exact ⟨closed, rfl⟩
  | cancelRead => exact ⟨closed, rfl⟩
  | next => exact ⟨closed, rfl⟩
  | close => exact ⟨rfl, rfl⟩
  | closeAgain => exact ⟨closed, rfl⟩

/-- A closed connection is never opened again. -/
theorem Step.Effect.open_before {s : Step δ} (effect : s.Effect) (isOpen : s.after.closed = false) :
    s.before.closed = false := by
  cases closed : s.before.closed with
  | false => rfl
  | true =>
    rw [(effect.of_closed closed).1] at isOpen
    cases isOpen

theorem Connection.run_closed {c : Connection δ} (closed : c.closed = true)
    (actions : List (Action δ)) : (c.run actions).closed = true := by
  induction actions generalizing c with
  | nil => exact closed
  | cons action actions ih => exact ih ((c.step_effect action).of_closed closed).1

/-- A step that does not close the connection works on the table through operations, which have
    the happenings that the step shows. -/
theorem Step.Effect.reaches {s : Step δ} (effect : s.Effect) :
    s.after.closed = true ∧ s.happenings = [] ∨
      s.before.objects.Reaches s.after.objects s.happenings := by
  cases effect with
  | refused noRead =>
    right
    rw [happenings_of_refused noRead]
    exact Reaches.refl
  | create _ _ inserted => exact .inr (Reaches.insertClient inserted)
  | @adopt c id _ _ entry _ _ found =>
    obtain ⟨present, live⟩ := ObjectTable.live?_some.1 found
    have current := ObjectTable.current?_some.2 ⟨present, live, rfl⟩
    exact .inr (Reaches.put current entry.data true entry.queue)
  | @release c o => exact .inr (Reaches.release o.id o.generation)
  | @request c o _ args final _ _ _ _ _ _ _ _ _ _ heard released =>
    right
    subst heard released
    have told := Reaches.markAnnounced (t := c.objects) (args.filterMap Argument.newId?)
    cases final with
    | true =>
      have done := told.trans (Reaches.release o.id o.generation)
      rw [List.append_nil] at done
      exact done
    | false => exact told
  | flush => exact .inr Reaches.refl
  | @attach _ _ _ _ data entry _ _ found =>
    exact .inr (Reaches.put found (some data) entry.owned entry.queue)
  | attachAgain => exact .inr Reaches.refl
  | @setQueue _ _ queue entry _ _ _ found =>
    exact .inr (Reaches.put found entry.data entry.owned queue)
  | createQueue => exact .inr Reaches.refl
  | @destroyQueue _ queue => exact .inr (Reaches.op (.reassignQueue queue QueueId.default))
  | prepareRead => exact .inr Reaches.refl
  | @read c outcomes _ gate =>
    exact .inr (Connection.readRound_leads { c with gate } outcomes)
  | withdraw => exact .inr Reaches.refl
  | cancelRead => exact .inr Reaches.refl
  | next => exact .inr Reaches.refl
  | close => exact .inl ⟨rfl, rfl⟩
  | closeAgain => exact .inr Reaches.refl

end Wayland.Client
