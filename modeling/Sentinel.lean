import Sentinel.Client.Minimality
import Sentinel.Client.Stranding
import Sentinel.Client.SendOrder
import Sentinel.Client.Blocking
import Sentinel.Gateway.Ownership
import Sentinel.Gateway.Finalize
import Sentinel.Gateway.Outbox
import Sentinel.Gateway.Reopening
import Sentinel.Gateway.Cadence
import Sentinel.Gateway.Contiguity
import Sentinel.Gateway.Isolation
import Sentinel.Link.Framing
import Sentinel.Link.Upload
import Sentinel.Link.ShiftChange
import Sentinel.Link.Holes
import Sentinel.Link.LostAcks
import Sentinel.Capture.Arming
import Sentinel.Capture.Sequences
import Sentinel.Capture.Epochs
import Sentinel.Capture.Suppression
import Sentinel.Capture.Silence
import Sentinel.Capture.Foreign
import Sentinel.Capture.Alignment
import Sentinel.Agent.Revocation
import Sentinel.Agent.Handover
import Sentinel.Agent.Reports
import Sentinel.Service.Subject
import Sentinel.Service.FrameReader
import Sentinel.Service.Der
import Sentinel.Service.Update
import Sentinel.Workers.PurgeEnd
import Sentinel.Workers.Flagging
import Sentinel.Portal.Pages
import Sentinel.Portal.Scorecards
import Sentinel.Portal.Transcript
import Sentinel.Agent.Loopback
import Sentinel.Service.Supervisor
import Sentinel.Web.LiveConnection
import Sentinel.Web.TokenCache
import Sentinel.Web.HostTokens
import Sentinel.Workers.Evidence
import Sentinel.Workers.Spans
import Sentinel.Workers.Spending
import Sentinel.Workers.Coverage
import Sentinel.Workers.Rendering
import Sentinel.Workers.Consumer
import Sentinel.Workers.Evaluate
