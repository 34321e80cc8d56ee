import Wayland.Argument
import Wayland.Client.Connection
import Wayland.Client.Error
import Wayland.Client.EventQueues
import Wayland.Client.Incoming
import Wayland.Client.Note
import Wayland.Client.ObjectTable
import Wayland.Client.Outbox
import Wayland.Client.ReadGate
import Wayland.Endpoint
import Wayland.Fixed
import Wayland.IdPool
import Wayland.Interface
import Wayland.Message
import Wayland.Proofs.Allocation
import Wayland.Proofs.Client.Announcements
import Wayland.Proofs.Client.Bounds
import Wayland.Proofs.Client.Conservation
import Wayland.Proofs.Client.Drafts
import Wayland.Proofs.Client.ErrorRecord
import Wayland.Proofs.Client.EventOrder
import Wayland.Proofs.Client.Handlings
import Wayland.Proofs.Client.Incoming
import Wayland.Proofs.Client.LateEvents
import Wayland.Proofs.Client.Lineage
import Wayland.Proofs.Client.Listeners
import Wayland.Proofs.Client.NumberReuse
import Wayland.Proofs.Client.ObjectTable
import Wayland.Proofs.Client.Operations
import Wayland.Proofs.Client.Outflow
import Wayland.Proofs.Client.Pieces
import Wayland.Proofs.Client.Possession
import Wayland.Proofs.Client.QueueNumbers
import Wayland.Proofs.Client.Queues
import Wayland.Proofs.Client.ReadRounds
import Wayland.Proofs.Client.Readers
import Wayland.Proofs.Client.Refusals
import Wayland.Proofs.Client.Run
import Wayland.Proofs.Client.Segments
import Wayland.Proofs.Client.StaleArguments
import Wayland.Proofs.Client.Stream
import Wayland.Proofs.Client.TableHistory
import Wayland.Proofs.Client.Threads
import Wayland.Proofs.FixedPoint
import Wayland.Proofs.IdPool
import Wayland.Proofs.Reservation
import Wayland.Proofs.Session.Abandonment
import Wayland.Proofs.Session.AnnouncementCalls
import Wayland.Proofs.Session.Calls
import Wayland.Proofs.Session.Courses
import Wayland.Proofs.Session.FatalErrors
import Wayland.Proofs.Session.Handlers
import Wayland.Proofs.Session.ListenerCalls
import Wayland.Proofs.Session.LoggedScripts
import Wayland.Proofs.Session.Logs
import Wayland.Proofs.Session.Outcomes
import Wayland.Proofs.Session.Ownership
import Wayland.Proofs.Session.RegistryCalls
import Wayland.Proofs.Session.Relations
import Wayland.Proofs.Session.Requests
import Wayland.Proofs.Session.Roundtrip
import Wayland.Proofs.Session.ScriptRelations
import Wayland.Proofs.Session.Scripts
import Wayland.Proofs.Session.Teardown
import Wayland.Proofs.Signatures
import Wayland.Proofs.Wire.Acceptance
import Wayland.Proofs.Wire.Bounds
import Wayland.Proofs.Wire.Canonical
import Wayland.Proofs.Wire.Lockstep
import Wayland.Proofs.Wire.RoundTrip
import Wayland.Proofs.Wire.SingleValue
import Wayland.Proofs.Wire.Values
import Wayland.Proofs.Wire.Words
import Wayland.Protocol.Core
import Wayland.Protocol.Known
import Wayland.Session.Answer
import Wayland.Session.Api
import Wayland.Session.Dispatch
import Wayland.Session.Link
import Wayland.Session.Run
import Wayland.Session.Script
import Wayland.Session.State
import Wayland.Signature
import Wayland.Text.Blank
import Wayland.Text.Digits
import Wayland.Text.Lossy
import Wayland.Text.Quoted
import Wayland.Text.Unprinted
import Wayland.Wire.Cursor
import Wayland.Wire.Value
import Wayland.Wire.Word
