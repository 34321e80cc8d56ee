import Wayland.Proofs.Client.Listeners

/-! # Objects that events name

An event in a queue knows the generation of its sender, but the objects among its arguments are
numbers only.  When a handler looks such a number up, it finds the object that has the number by
then.  `argument_context_iff` says which objects these can be: the one that was meant when the
event was read, or a later one that was given the same number since.
-/

namespace Wayland.Client

variable {δ : Type}

theorem Connection.objectContext?_some {c : Connection δ} {id : ObjectId} {context : δ} :
    c.objectContext? (some id) = some context ↔
      ∃ entry, c.objects.live? id = some entry ∧ entry.data = some context := by
  simp [objectContext?, Option.bind_eq_some_iff]

/-- What is found for a number is what was attached to the live object that has it. -/
theorem Listening.context_iff {past : List (Step δ)} {c : Connection δ}
    (listening : Listening past c.objects) {id : ObjectId} {context : δ} :
    c.objectContext? (some id) = some context ↔
      ∃ generation, (c.objects.current? id generation).isSome = true ∧
        listenersOf id generation past = [context] := by
  rw [Connection.objectContext?_some]
  constructor
  · rintro ⟨entry, live, attached⟩
    have heard := listening.current id entry live
    obtain ⟨found, alive⟩ := ObjectTable.live?_some.1 live
    rw [attached] at heard
    refine ⟨entry.generation, ?_, heard⟩
    rw [ObjectTable.current?_some.2 ⟨found, alive, rfl⟩]
    rfl
  · rintro ⟨generation, isCurrent, heard⟩
    obtain ⟨entry, current⟩ := Option.isSome_iff_exists.1 isCurrent
    obtain ⟨found, alive, rfl⟩ := ObjectTable.current?_some.1 current
    have live := ObjectTable.live?_some.2 ⟨found, alive⟩
    rw [listening.current id entry live] at heard
    refine ⟨entry, live, ?_⟩
    cases attached : entry.data with
    | none => simp [attached] at heard
    | some data => simpa [attached] using heard

/-- The object that has a number is the one that had it when a message was handled, or was created
    since. -/
theorem Connection.current_cases {protocol : Protocol} {actions : List (Action δ)} {s : Step δ}
    {h : Handling δ} {id : ObjectId} {generation generation' : Generation}
    (mem : s ∈ (initial protocol).trace actions) (handled : h ∈ s.handled)
    (meant : (h.after.objects.current? id generation).isSome = true)
    (now : (((initial protocol).run actions).objects.current? id generation').isSome = true) :
    generation' = generation ∨
      generation < generation' ∧ h.after.objects.nextGeneration ≤ generation' := by
  obtain ⟨entry, current⟩ := Option.isSome_iff_exists.1 meant
  obtain ⟨entry', current'⟩ := Option.isSome_iff_exists.1 now
  obtain ⟨found, _, rfl⟩ := ObjectTable.current?_some.1 current
  obtain ⟨found', _, rfl⟩ := ObjectTable.current?_some.1 current'
  obtain ⟨before, after⟩ := (initial protocol).handled_precedes actions s mem h handled
  have below := (before.trans h.precedes).below (initial_below protocol) id entry found
  obtain ⟨entry₀, found₀, continues⟩ | ⟨new, _⟩ := after.origin id entry' found'
  · rw [found] at found₀
    cases found₀
    exact .inl continues.generation
  · exact .inr ⟨Nat.lt_of_lt_of_le below new, new⟩

/-- In every run: an event is read when one of its arguments names a live object.  Whenever
    something is found for that number later, it is what was attached to this object, if it is
    still alive, or to an object that was created after the event was read and has the number
    now. -/
theorem argument_context_iff (protocol : Protocol) (actions : List (Action δ)) :
    let steps := (Connection.initial protocol).trace actions
    let c := (Connection.initial protocol).run actions
    ∀ s ∈ steps, ∀ h ∈ s.handled, ∀ queue event, h.added? = some (queue, event) →
      ∀ id, Argument.object (some id) ∈ event.args →
      ∀ generation, (h.after.objects.current? id generation).isSome = true →
      ∀ context, c.objectContext? (some id) = some context ↔
        (c.objects.current? id generation).isSome = true ∧
            listenersOf id generation steps = [context] ∨
          ∃ later, generation < later ∧ h.after.objects.nextGeneration ≤ later ∧
            (c.objects.current? id later).isSome = true ∧
            listenersOf id later steps = [context] := by
  intro steps c s mem h handled queue event _ id _ generation meant context
  rw [(listening_run protocol actions).context_iff]
  constructor
  · rintro ⟨found, isCurrent, heard⟩
    obtain rfl | ⟨after, new⟩ := Connection.current_cases mem handled meant isCurrent
    · exact .inl ⟨isCurrent, heard⟩
    · exact .inr ⟨found, after, new, isCurrent, heard⟩
  · rintro (⟨isCurrent, heard⟩ | ⟨later, _, _, isCurrent, heard⟩)
    · exact ⟨generation, isCurrent, heard⟩
    · exact ⟨later, isCurrent, heard⟩

/-- A surface with one event that names an output. -/
def surface : Interface := ⟨"surface", 1, [], [⟨"enter", "o", [some 1]⟩]⟩

def output : Interface := ⟨"output", 1, [], []⟩

/-- A surface enters an output.  Before that is dispatched, the output is destroyed and its number
    goes to another one. -/
def outputReplaced : List (Action String) :=
  let display : ObjectRef := ⟨displayId, 0, Protocol.Core.display, 1⟩
  let arrives (message : Incoming) : Action String :=
    .read [.received message.packet.bytes [], .wouldBlock]
  [.create display surface 1, .attach ⟨2, 1, surface, 1⟩ surface 1 "surface",
    .request display 1 [.newId 2] false [],
    .create display output 1, .attach ⟨3, 2, output, 1⟩ output 0 "old",
    .request display 1 [.newId 3] false [],
    .createQueue, .setQueue ⟨2, 1, surface, 1⟩ 1,
    .prepareRead QueueId.default, arrives (.event 2 0 [.object (some 3)]),
    .release ⟨3, 2, output, 1⟩, .prepareRead QueueId.default, arrives (.deleteId 3),
    .create display output 1, .attach ⟨3, 3, output, 1⟩ output 0 "new",
    .next 1]

/-- The handler of the surface finds the new output, although the event was about the old one. -/
theorem argument_context_iff_replaced :
    let steps := (Connection.initial ⟨[surface, output]⟩).trace outputReplaced
    let c := (Connection.initial ⟨[surface, output]⟩).run outputReplaced
    ∃ s ∈ steps, ∃ h ∈ s.handled,
      h.added? = some (1, ⟨2, 1, 0, [.object (some 3)]⟩) ∧
      (h.after.objects.current? 3 2).isSome = true ∧ listenersOf 3 2 steps = ["old"] ∧
      c.objectContext? (some 3) = some "new" := by
  intro steps c
  have read : ∃ s ∈ steps, ∃ h ∈ s.handled,
      h.added? = some (1, ⟨2, 1, 0, [.object (some 3)]⟩) ∧
      (h.after.objects.current? 3 2).isSome = true ∧ h.after.objects.nextGeneration = 3 := by
    decide +kernel
  obtain ⟨s, mem, h, handled, added, meant, next⟩ := read
  refine ⟨s, mem, h, handled, added, meant, by decide +kernel, ?_⟩
  refine (argument_context_iff ⟨[surface, output]⟩ outputReplaced s mem h handled _ _ added 3
    (by simp) 2 meant "new").2 (.inr ⟨3, by decide, Nat.le_of_eq next, ?_, ?_⟩)
  · decide +kernel
  · decide +kernel

end Wayland.Client
