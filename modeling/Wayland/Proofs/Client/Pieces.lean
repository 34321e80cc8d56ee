import Wayland.Proofs.Client.Incoming

/-! # Bytes in pieces

It does not matter into which pieces incoming bytes are cut: `absorbPieces_of_flatten_eq`.

A message at the front of some bytes is still there when more bytes follow, and handling it does
not look at them.  So a piece that leaves no error may be joined with the next (`Absorbs.of_feed`).
A piece that leaves one ends the run, and then what follows in the same piece must not change the
error (`Absorbs.error_of_feed`): nothing is handled behind a message that makes no sense, and what
the compositor itself reported is never replaced.
-/

namespace Wayland.Client

theorem FatalError.record_none (error : FatalError) : record none error = error := rfl

theorem FatalError.record_protocol {error : FatalError} (final : error.isProtocol = true)
    (new : FatalError) : record (some error) new = error := by
  simp [record, final]

namespace Connection

variable {δ : Type} {c c' d e : Connection δ} {header : Wire.Header} {body rest more : Wire.Bytes}
  {fault : Option FatalError} {error : FatalError}

/-! ## Errors -/

theorem Handles.protocol_stays (final : error.isProtocol = true)
    (handles : Handles c header body fault c') (recorded : c.error = some error) :
    c'.error = some error := by
  obtain same | ⟨new, replaced⟩ := handles.error
  · rw [same, recorded]
  · rw [replaced, recorded, FatalError.record_protocol final]

/-- What the compositor reported is never replaced. -/
theorem Absorbs.protocol_stays (final : error.isProtocol = true) (run : Absorbs c d)
    (recorded : c.error = some error) : d.error = some error := by
  induction run with
  | incomplete => exact recorded
  | malformed => rw [fail_error, recorded, FatalError.record_protocol final]
  | fault _ handled =>
    rw [fail_error, handled.protocol_stays final recorded, FatalError.record_protocol final]
  | message _ handled _ ih => exact ih (handled.protocol_stays final recorded)

/-! ## More bytes -/

/-- The connection once more bytes have arrived. -/
def feed (c : Connection δ) (bytes : Wire.Bytes) : Connection δ :=
  c.withBytes (c.inbox.bytes ++ bytes)

@[simp] theorem feed_error (bytes : Wire.Bytes) : (c.feed bytes).error = c.error := rfl

theorem feed_append (c : Connection δ) (first second : Wire.Bytes) :
    c.feed (first ++ second) = (c.feed first).feed second := by
  simp [feed, withBytes]

theorem front_feed (more : Wire.Bytes)
    (front : Front.of c.inbox.bytes = .message header body rest) :
    Front.of (c.feed more).inbox.bytes = .message header body (rest ++ more) :=
  Front.of_append_message front more

theorem Handles.feed (handles : Handles (c.withBytes rest) header body fault c')
    (more : Wire.Bytes) :
    Handles ((c.feed more).withBytes (rest ++ more)) header body fault (c'.feed more) := by
  have left : c'.inbox.bytes = rest := handles.bytes
  have fed := handles.withBytes (rest ++ more)
  rw [← left] at fed ⊢
  exact fed

/-- If handling some bytes leaves no error, more bytes may as well be there from the beginning. -/
theorem Absorbs.of_feed (run : Absorbs c d) (clean : d.error = none)
    (others : Absorbs (d.feed more) e) : Absorbs (c.feed more) e := by
  induction run with
  | incomplete => exact others
  | malformed => simp at clean
  | fault => simp at clean
  | message front handled _ ih =>
    exact .message (front_feed more front) (handled.feed more) (ih clean others)

/-- If handling some bytes leaves an error, more bytes cannot change it. -/
theorem Absorbs.error_of_feed (run : Absorbs c d) (clean : c.error = none)
    (recorded : d.error = some error) (all : Absorbs (c.feed more) e) : e.error = some error := by
  induction run with
  | incomplete => simp [clean] at recorded
  | malformed front =>
    rw [all.unique (.malformed (Front.of_append_malformed front more))]
    simpa using recorded
  | fault front handled =>
    rw [all.unique (.fault (front_feed more front) (handled.feed more))]
    simpa using recorded
  | @message c c' d header body rest front handled others ih =>
    -- The first message is the same with more bytes behind it.
    have rest : Absorbs (c'.feed more) e := by
      have run : Absorbs (c'.feed more) (c'.feed more).absorb.value := absorbs_iff.2 rfl
      rw [all.unique (.message (front_feed more front) (handled.feed more) run)]
      exact run
    obtain same | ⟨report, reported⟩ := handled.error
    · exact ih (same.trans clean) recorded rest
    · have final : c'.error = some (.protocol report) := by
        rw [reported, withBytes_error, clean, FatalError.record_none]
      have stays : d.error = some (.protocol report) := others.protocol_stays rfl final
      rw [stays] at recorded
      rw [← recorded]
      exact rest.protocol_stays rfl final

/-! ## Pieces -/

/-- Bytes arrive in pieces and each piece is handled when it is there, up to the first one that
    ends the connection. -/
def absorbPieces : Connection δ → List Wire.Bytes → Connection δ
  | c, [] => c
  | c, piece :: pieces =>
    let c := (c.feed piece).absorb.value
    match c.error with
    | some _ => c
    | none => absorbPieces c pieces

/-- Pieces one by one are as good as all of them at once. -/
theorem absorbPieces_flatten {pieces : List Wire.Bytes} (nonempty : pieces ≠ [])
    (clean : c.error = none) :
    (c.absorbPieces pieces).error = (c.feed pieces.flatten).absorb.value.error ∧
      ((c.absorbPieces pieces).error = none →
        c.absorbPieces pieces = (c.feed pieces.flatten).absorb.value) := by
  induction pieces generalizing c with
  | nil => exact absurd rfl nonempty
  | cons piece pieces ih =>
    have first : Absorbs (c.feed piece) (c.feed piece).absorb.value := absorbs_iff.2 rfl
    have all : Absorbs ((c.feed piece).feed pieces.flatten)
        (c.feed (piece :: pieces).flatten).absorb.value := by
      rw [List.flatten_cons, feed_append]
      exact absorbs_iff.2 rfl
    cases recorded : (c.feed piece).absorb.value.error with
    | some error =>
      have stopped : c.absorbPieces (piece :: pieces) = (c.feed piece).absorb.value := by
        simp [absorbPieces, recorded]
      rw [stopped, recorded, first.error_of_feed clean recorded all]
      exact ⟨rfl, nofun⟩
    | none =>
      have continued : c.absorbPieces (piece :: pieces) =
          (c.feed piece).absorb.value.absorbPieces pieces := by
        simp [absorbPieces, recorded]
      rw [continued]
      cases pieces with
      | nil => simp [absorbPieces]
      | cons next pieces =>
        have joined : (c.feed (piece :: next :: pieces).flatten).absorb.value =
            ((c.feed piece).absorb.value.feed (next :: pieces).flatten).absorb.value :=
          all.unique (first.of_feed recorded (absorbs_iff.2 rfl))
        rw [joined]
        exact ih (List.cons_ne_nil next pieces) recorded

/-- It does not matter how incoming bytes are cut.  Whatever the bytes are and wherever the cuts
    fall, the connection ends with the same error, or goes on in the same state. -/
theorem absorbPieces_of_flatten_eq (c : Connection δ) (clean : c.error = none)
    (pieces pieces' : List Wire.Bytes) (nonempty : pieces ≠ []) (nonempty' : pieces' ≠ [])
    (same : pieces.flatten = pieces'.flatten) :
    (c.absorbPieces pieces).error = (c.absorbPieces pieces').error ∧
      ((c.absorbPieces pieces).error = none →
        c.absorbPieces pieces = c.absorbPieces pieces') := by
  obtain ⟨error, state⟩ := absorbPieces_flatten nonempty clean
  obtain ⟨error', state'⟩ := absorbPieces_flatten nonempty' clean
  rw [same] at error state
  refine ⟨error.trans error'.symm, ?_⟩
  intro none
  rw [state none, state' (error'.trans (error.symm.trans none))]

/-- The compositor lets go of number 7 and then reports an error, and behind that is a message of
    impossible size.  Cuts fall inside the first header, inside the report and right behind it.
    Without the end of the report nothing is wrong yet, and its beginning stays in the inbox. -/
theorem absorbPieces_of_flatten_eq_report :
    let c : Connection Unit := Connection.initial ⟨Protocol.Core.tables⟩
    let deleted : Wire.Bytes := [1, 0, 0, 0, 1, 0, 12, 0, 7, 0, 0, 0]
    let report : Wire.Bytes := [1, 0, 0, 0, 0, 0, 24, 0, 1, 0, 0, 0, 3, 0, 0, 0, 3, 0, 0, 0,
      111, 104, 0, 0]
    let impossible : Wire.Bytes := [2, 0, 0, 0, 0, 0, 9, 0]
    let start := [deleted.take 5, deleted.drop 5 ++ report.take 10]
    let cut := start ++ [report.drop 10, impossible]
    (c.absorbPieces cut).error = some (.protocol ⟨1, "wl_display", 3, "oh"⟩) ∧
      (c.absorbPieces [deleted ++ report ++ impossible]).error = (c.absorbPieces cut).error ∧
      (c.absorbPieces start).inbox.bytes = report.take 10 ∧
      c.absorbPieces start = c.absorbPieces [deleted ++ report.take 10] := by
  intro c deleted report impossible start cut
  obtain ⟨errors, _⟩ := absorbPieces_of_flatten_eq c rfl cut [deleted ++ report ++ impossible]
    (List.cons_ne_nil _ _) (List.cons_ne_nil _ _) (by decide)
  obtain ⟨_, states⟩ := absorbPieces_of_flatten_eq c rfl start [deleted ++ report.take 10]
    (List.cons_ne_nil _ _) (List.cons_ne_nil _ _) (by decide)
  exact ⟨by decide +kernel, errors.symm, by decide +kernel, states (by decide +kernel)⟩

end Connection

end Wayland.Client
