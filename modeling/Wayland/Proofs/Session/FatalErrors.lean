import Wayland.Proofs.Client.ErrorRecord
import Wayland.Proofs.Session.Calls

/-! # Calls on a connection that has ended with an error

Once an error is on record, whatever an application asks of the connection is declined.  A call
that has nothing wrong with it otherwise fails with the error on record.
-/

namespace Wayland.Session

open Client (Action Connection QueueId FatalError displayId)

/-- In every run of a connection.  From the moment the socket has been asked, and while messages are
    handled, what is on record stays, unless it is replaced by a report of the compositor, which
    nothing replaces.  What is on record when a step has ended stays for good.  From then on, as
    long as the connection is open, every call of an application on it fails and leaves the whole
    session as it is, whatever handlers would have done; and if the call is valid, it fails with the
    error on record. -/
theorem fatal_error_sticks (protocol : Protocol) (past future : List (Action ObjectData)) :
    let start : Connection ObjectData := Connection.initial protocol
    let c := start.run (past ++ future)
    (∀ s ∈ start.trace past,
      FatalError.Stays s.outset s.after.error ∧
      (s.handled.Pairwise fun h later => FatalError.Stays h.after.error later.before.error) ∧
      ∀ h ∈ s.handled, FatalError.Stays s.outset h.before.error ∧
        FatalError.Stays h.before.error h.after.error ∧
        FatalError.Stays h.after.error s.after.error) ∧
    ∀ e, (start.run past).error = some e →
      c.error = some e ∧
      ∀ (s : State) connection, (s.channel connection).connection = c → c.closed = false →
        ∀ patience act command, Command.On connection command →
          ∃ cause, s.outcome (command.perform patience act) = (.error cause, s) ∧
            (command.Valid s connection → cause = .client (.fatal e)) := by
  intro start c
  refine ⟨?_, ?_⟩
  · intro s mem
    obtain ⟨_, action, _, _, rfl⟩ := Connection.exists_of_mem_trace mem
    exact ⟨Connection.outset_stays _ action, (Connection.step_effect _ action).handled_stay.2⟩
  · intro e recorded
    have stays : c.error = some e := by
      have later := Connection.run_error recorded future
      rwa [← Connection.run_append] at later
    refine ⟨stays, ?_⟩
    intro s connection same isOpen patience act command on
    have refuses : s.Refuses connection (.fatal e) := by
      unfold State.Refuses
      rw [same]
      exact Connection.check_of_error isOpen stays
    exact command.refused refuses patience act on

/-- The compositor's last words arrive together with the news that the socket has failed. -/
def lastWords : List (Action ObjectData) :=
  let report := Message.encode displayId 0 [.object (some displayId), .uint 3, .str (some "bad")]
  [.prepareRead QueueId.default, .read [.received report.bytes [], .failed .connectionReset]]

/-- A session on the connection that has read them. -/
def afterLastWords : State where
  protocol := ⟨[]⟩
  channels := [{ connection := (Connection.initial ⟨[]⟩).run lastWords, link := {} }]
  displays := { entries := [("d", { connection := some 0, proxy := displayProxy })] }

/-- The report takes the place of the failure, and a roundtrip fails with it. -/
theorem fatal_error_sticks_report :
    let report : FatalError := .protocol ⟨displayId, "wl_display", 3, "bad"⟩
    let start : Connection ObjectData := Connection.initial ⟨[]⟩
    let d : Display := { connection := some 0, proxy := displayProxy }
    (∃ s ∈ start.trace lastWords, ∃ h ∈ s.handled,
      h.before.error = some (.socket .connectionReset) ∧ h.after.error = some report) ∧
    (start.run lastWords).error = some report ∧
    ∀ patience act, afterLastWords.outcome ((Command.roundtrip d none).perform patience act) =
      (.error (.client (.fatal report)), afterLastWords) := by
  intro report start d
  have recorded : (start.run lastWords).error = some report := by decide +kernel
  refine ⟨by decide +kernel, recorded, fun patience act => ?_⟩
  obtain ⟨_, calls⟩ := (fatal_error_sticks ⟨[]⟩ lastWords []).2 report recorded
  have on : Command.On 0 (.roundtrip d none) := by
    refine ⟨rfl, ?_⟩
    rintro h held
    cases held
    rfl
  obtain ⟨cause, outcome, valid⟩ := calls afterLastWords 0 rfl (by decide +kernel) patience act _ on
  rw [outcome, valid ⟨by decide +kernel, by simp⟩]

end Wayland.Session
