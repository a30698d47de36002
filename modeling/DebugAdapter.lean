import DebugAdapter.Bytes
import DebugAdapter.Config
import DebugAdapter.Correlation
import DebugAdapter.Debuggee.Launch
import DebugAdapter.Debuggee.Line
import DebugAdapter.Debuggee.Link
import DebugAdapter.Debuggee.Record
import DebugAdapter.Debuggee.Report
import DebugAdapter.Debuggee.Supervisor
import DebugAdapter.Decimal.Shortest
import DebugAdapter.Frontend.Frame
import DebugAdapter.Frontend.Message
import DebugAdapter.Frontend.Outbox
import DebugAdapter.Frontend.ReadSpace
import DebugAdapter.Frontend.Request
import DebugAdapter.Frontend.Reservoir
import DebugAdapter.Json.Basic
import DebugAdapter.Json.Error
import DebugAdapter.Json.Numeric
import DebugAdapter.Json.Printer
import DebugAdapter.Json.Reader
import DebugAdapter.Json.Scan
import DebugAdapter.Json.Skip
import DebugAdapter.Json.Typed
import DebugAdapter.Logging.Directive
import DebugAdapter.Logging.Entry
import DebugAdapter.Logging.Filter
import DebugAdapter.Logging.Pattern.Atom
import DebugAdapter.Logging.Pattern.Mode
import DebugAdapter.Logging.Pattern.Reading
import DebugAdapter.Main
import DebugAdapter.Options
import DebugAdapter.Program
import DebugAdapter.Scenario.Debuggee
import DebugAdapter.Scenario.Direct
import DebugAdapter.Scenario.Files
import DebugAdapter.Scenario.Matching
import DebugAdapter.Scenario.Pipe
import DebugAdapter.Scenario.Serving.Basic
import DebugAdapter.Scenario.Serving.Run
import DebugAdapter.Scenario.Serving.Turn
import DebugAdapter.Scenario.Supervision
import DebugAdapter.Scenario.Turns
import DebugAdapter.Scenario.World
import DebugAdapter.Scenario.Writing
import DebugAdapter.Server
import DebugAdapter.Session.Basic
import DebugAdapter.Session.Error
import DebugAdapter.Session.Reports
import DebugAdapter.Session.Requests
import DebugAdapter.Session.Step
import DebugAdapter.Text.Alphabetic
import DebugAdapter.Text.Alphanumeric
import DebugAdapter.Text.Blank
import DebugAdapter.Text.Numeral
import DebugAdapter.Text.Plain
import DebugAdapter.Text.Printable
import DebugAdapter.Text.Quoted
import DebugAdapter.Text.Slice
import DebugAdapter.Text.Utf8
import DebugAdapter.Workspace
import DebugAdapter.Proofs.Bytes
import DebugAdapter.Proofs.Correlation.Ledger
import DebugAdapter.Proofs.Debuggee.Lines
import DebugAdapter.Proofs.Debuggee.Wire
import DebugAdapter.Proofs.Frontend.Arrival
import DebugAdapter.Proofs.Frontend.HeaderLimit
import DebugAdapter.Proofs.Session.Course
import DebugAdapter.Proofs.Session.Desk
import DebugAdapter.Proofs.Session.Answers
import DebugAdapter.Proofs.Session.LateReplies
import DebugAdapter.Proofs.Session.Coherence
import DebugAdapter.Proofs.Session.Phases
import DebugAdapter.Proofs.Session.Announcement
import DebugAdapter.Proofs.Session.Endings
import DebugAdapter.Proofs.Session.DeadLink
import DebugAdapter.Proofs.Session.HandshakeOrder
import DebugAdapter.Proofs.Session.FirstInFirstOut
import DebugAdapter.Proofs.Debuggee.Supervision
import DebugAdapter.Proofs.Debuggee.LastReport
import DebugAdapter.Proofs.Text
import DebugAdapter.Proofs.Json.Pieces
import DebugAdapter.Proofs.Json.RoundTrip
import DebugAdapter.Proofs.Frontend.Requests
import DebugAdapter.Proofs.Frontend.Framing
import DebugAdapter.Proofs.Frontend.Messages
import DebugAdapter.Proofs.Debuggee.Commands
import DebugAdapter.Proofs.Debuggee.Records
import DebugAdapter.Proofs.Session.Notices
import DebugAdapter.Proofs.Session.Relaying
import DebugAdapter.Proofs.Buffering
import DebugAdapter.Proofs.Frontend.Padding
import DebugAdapter.Proofs.Debuggee.Padding
import DebugAdapter.Proofs.Server.Bridge
import DebugAdapter.Proofs.Server.Shown
import DebugAdapter.Proofs.Server.Inertness
import DebugAdapter.Proofs.Correlation.Deadlines
import DebugAdapter.Proofs.Session.FailedLaunch
import DebugAdapter.Proofs.Session.FirstWords
import DebugAdapter.Proofs.Session.Impatience
import DebugAdapter.Proofs.Session.LateStops
import DebugAdapter.Proofs.Debuggee.Stopping
import DebugAdapter.Proofs.Paths
import DebugAdapter.Proofs.Workspace
import DebugAdapter.Proofs.Session.FailedReplies
import DebugAdapter.Proofs.Server.Shutdown
import DebugAdapter.Proofs.Numerals
import DebugAdapter.Proofs.Session.Breakpoints
import DebugAdapter.Proofs.Frontend.HeaderGrammar
import DebugAdapter.Proofs.Frontend.StreamEnd
import DebugAdapter.Proofs.Json.Grammar
import DebugAdapter.Proofs.Debuggee.FieldOrder
