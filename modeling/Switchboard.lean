import Switchboard.Echo
import Switchboard.Frame.Reader
import Switchboard.Request
import Switchboard.Retry.Timeline
import Switchboard.Server.Http
import Switchboard.Settings.Environment
import Switchboard.Timeline
import Switchboard.Proofs.Operations
import Switchboard.Proofs.Moves
import Switchboard.Proofs.Ownership
import Switchboard.Proofs.Leftover
import Switchboard.Proofs.Effects
import Switchboard.Proofs.Edits
import Switchboard.Proofs.Hub.Membership
import Switchboard.Proofs.Hub.Received
import Switchboard.Proofs.Replica
import Switchboard.Proofs.Outlook
import Switchboard.Proofs.Progress
import Switchboard.Proofs.Tasks
import Switchboard.Proofs.Transcript
import Switchboard.Proofs.Hub.Numbering
import Switchboard.Proofs.Lifespan
import Switchboard.Proofs.Holds
import Switchboard.Proofs.Cancelling
import Switchboard.Proofs.Hub.Presence
import Switchboard.Proofs.Hub.Isolation
import Switchboard.Proofs.Sidebar
import Switchboard.Proofs.Hub.Arrivals
import Switchboard.Proofs.Requests
import Switchboard.Proofs.Sessions
import Switchboard.Proofs.Replies
import Switchboard.Proofs.Rpc.Envelope
import Switchboard.Proofs.Frames
import Switchboard.Proofs.Messages
import Switchboard.Proofs.Refusals
import Switchboard.Proofs.Attempts
import Switchboard.Proofs.Guards
import Switchboard.Proofs.Registry.Callbacks
import Switchboard.Proofs.Registry.ToolList
import Switchboard.Proofs.Histories
import Switchboard.Proofs.Registry.Memory
import Switchboard.Proofs.Repeats
import Switchboard.Proofs.Hub.Greetings
import Switchboard.Proofs.Joining
import Switchboard.Proofs.Archiving
import Switchboard.Proofs.Serving
import Switchboard.Proofs.Sending
import Switchboard.Proofs.Rpc.Failures
import Switchboard.Proofs.Echoing
import Switchboard.Proofs.Silence
import Switchboard.Proofs.Rpc.Results
import Switchboard.Proofs.Notices
import Switchboard.Proofs.Delays
import Switchboard.Proofs.RunLists
