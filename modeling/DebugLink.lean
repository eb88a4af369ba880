import DebugLink.Proofs.Value.Grammar
import DebugLink.Proofs.Value.Reading
import DebugLink.Proofs.Record.Frame
import DebugLink.Proofs.Value.Completing
import DebugLink.Proofs.Record.Offence
import DebugLink.Proofs.Dict
import DebugLink.Proofs.Value.Writing
import DebugLink.Proofs.Record.RoundTrip
import DebugLink.Proofs.Lines
import DebugLink.Proofs.Framing
import DebugLink.Proofs.Session.Moves
import DebugLink.Proofs.Session.Past
import DebugLink.Proofs.Session.Taking
import DebugLink.Proofs.Channel
import DebugLink.Proofs.Session.Reading
import DebugLink.Proofs.Session.Schedule
import DebugLink.Proofs.Session.Settling
import DebugLink.Proofs.Session.Calls
import DebugLink.Proofs.Session.Operations
import DebugLink.Proofs.Session.Runs
import DebugLink.Proofs.Session.Wire
import DebugLink.Proofs.Session.Commands
import DebugLink.Proofs.Session.Routing
import DebugLink.Proofs.Session.Tables
import DebugLink.Proofs.Record.Stream
import DebugLink.Proofs.Session.Mirror
import DebugLink.Proofs.Session.Stopping
import DebugLink.Proofs.Session.Drawing
import DebugLink.Proofs.Session.Waiting
import DebugLink.Proofs.Session.Closing
import DebugLink.Proofs.Session.Ending
import DebugLink.Proofs.Session.Handlers
import DebugLink.Proofs.Session.Ledger
import DebugLink.Proofs.Session.Staff
import DebugLink.Proofs.Session.Answers
import DebugLink.Proofs.Session.Console
import DebugLink.Proofs.Session.Resuming
import DebugLink.Proofs.Session.Exhausting
import DebugLink.Proofs.Session.Failing
import DebugLink.Proofs.Session.Passing
import DebugLink.Proofs.Session.Showing
import DebugLink.Proofs.Session.Asking
import DebugLink.Proofs.Breakpoint
import DebugLink.Proofs.Replay
import DebugLink.Proofs.Session.Heeding
import DebugLink.Proofs.Text.Order
import DebugLink.Proofs.Text.Words
import DebugLink.Proofs.Listing
import DebugLink.Proofs.Value.Rearranging
import DebugLink.Proofs.Record.Arguments
import DebugLink.Proofs.Record.Rearranging
import DebugLink.Proofs.Session.Idle
import DebugLink.Proofs.Session.Inert
import DebugLink.Proofs.Session.Thinning
import DebugLink.Proofs.Session.Sending
import DebugLink.Proofs.Prompt.Turns
import DebugLink.Proofs.Prompt.Wording
import DebugLink.Proofs.Prompt.Lines
import DebugLink.Proofs.Prompt.Sending
import DebugLink.Proofs.Request
