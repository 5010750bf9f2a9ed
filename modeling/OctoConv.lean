import OctoConv.Lib.Table
import OctoConv.Lib.Slots
import OctoConv.Lib.Program
import OctoConv.Lib.Run
import OctoConv.Lib.Monitor
import OctoConv.Lib.RelyGuarantee
import OctoConv.Base.Errors
import OctoConv.Base.Keys
import OctoConv.Base.Time
import OctoConv.Jobs.Model
import OctoConv.Jobs.Lifecycle
import OctoConv.Jobs.Repo
import OctoConv.Jobs.Transactions
import OctoConv.Queue.Client
import OctoConv.Queue.Asynq
import OctoConv.World
import OctoConv.Worker.Terminal
import OctoConv.Worker.Handlers
import OctoConv.Worker.Attempts
import OctoConv.Reconciler.Sweep
import OctoConv.Api.Jobs
import OctoConv.System.Model
import OctoConv.System.Contract
import OctoConv.System.Outputs
import OctoConv.System.Webhooks
import OctoConv.System.Unfinished
import OctoConv.System.Tasks
import OctoConv.System.Delivery
import OctoConv.System.DeadLetters
import OctoConv.System.Idempotence
import OctoConv.System.Race
import OctoConv.Reconciler.AdvisoryLock
import OctoConv.Mcp.Sessions
import OctoConv.Clients.Keys
import OctoConv.Presets.Transactions
import OctoConv.Lib.Unicode
import OctoConv.Lib.Strings
import OctoConv.Lib.FirstMax
import OctoConv.Lib.Path
import OctoConv.Convert.Formats
import OctoConv.Convert.Agreement
import OctoConv.Convert.Opts
import OctoConv.Api.Options
import OctoConv.Convert.Members
import OctoConv.Mcp.Download
import OctoConv.Queue.Lifetime
import OctoConv.Queue.WebhookBackoff
import OctoConv.Lib.Bytes
import OctoConv.Lib.Chain
import OctoConv.Lib.Boxes
import OctoConv.Convert.Dimensions
import OctoConv.Convert.Jpeg
import OctoConv.Convert.Heic
import OctoConv.Convert.BoxWalk
import OctoConv.Convert.Tiff
import OctoConv.Convert.Docsniff
import OctoConv.Lib.Utf8
import OctoConv.Lib.Vint
import OctoConv.Lib.Wrap
import OctoConv.Lib.Search
import OctoConv.Convert.Htmlsniff
import OctoConv.Convert.Chromium
import OctoConv.Lib.HtmlLexer
import OctoConv.Convert.Rendered
import OctoConv.Lib.Reader
import OctoConv.Convert.Ebml
import OctoConv.Convert.EbmlGrammar
import OctoConv.Convert.Cfb
import OctoConv.Convert.CfbChain
import OctoConv.Convert.Sniff
import OctoConv.Api.Request
import OctoConv.Api.CreateJob
import OctoConv.Api.Pinned
import OctoConv.Lib.Traces
import OctoConv.Base.Floats
import OctoConv.Convert.Exec
import OctoConv.Convert.Probe
import OctoConv.Convert.Av
import OctoConv.Convert.AvOptions
import OctoConv.Convert.AvBounds
import OctoConv.Presets.OptsCheck
import OctoConv.Convert.Whisper
import OctoConv.Worker.Guard
import OctoConv.Worker.Ceilings
import OctoConv.Lib.Scan
import OctoConv.Worker.Signatures
import OctoConv.Worker.StorageVerdicts
import OctoConv.Worker.AudioVerdicts
import OctoConv.Convert.AvFailures
import OctoConv.Worker.AVVerdicts
import OctoConv.System.Dates
import OctoConv.System.Recovery
import OctoConv.Worker.DocumentVerdicts
import OctoConv.Api.Service
import OctoConv.Api.Isolation
import OctoConv.System.Custody
import OctoConv.Reconciler.Fleet
import OctoConv.Mcp.Client
import OctoConv.Mcp.Conversation
import OctoConv.Mcp.Redaction
import OctoConv.Api.ListFormats
