import ObjectProcessor.Library.Transition
import ObjectProcessor.Library.PastTime
import ObjectProcessor.Library.Tally
import ObjectProcessor.Library.Grouping
import ObjectProcessor.Library.Collection
import ObjectProcessor.Library.Keyset
import ObjectProcessor.Library.Record
import ObjectProcessor.Library.Dispatch
import ObjectProcessor.Library.Drain
import ObjectProcessor.Library.Attempts
import ObjectProcessor.Library.Replace
import ObjectProcessor.Library.Catalog
import ObjectProcessor.Library.Hex
import ObjectProcessor.Library.Isolation
import ObjectProcessor.Library.Uuid
import ObjectProcessor.Library.Calendar
import ObjectProcessor.Library.Uri
import ObjectProcessor.Library.Json
import ObjectProcessor.Library.JsonSchema
import ObjectProcessor.Library.Schema
import ObjectProcessor.Config
import ObjectProcessor.Store.ObjectId
import ObjectProcessor.Store.Connection
import ObjectProcessor.Callback.Form
import ObjectProcessor.Callback.Schema
import ObjectProcessor.Callback.Validation
import ObjectProcessor.Metadata.Document
import ObjectProcessor.Metadata.Pages
import ObjectProcessor.Metadata.Response
import ObjectProcessor.Metadata.Blob
import ObjectProcessor.Status.Record
import ObjectProcessor.Outbox.Entry
import ObjectProcessor.Outbox.Backlog
import ObjectProcessor.Outbox.Finalise
import ObjectProcessor.Outbox.PollLoop
import ObjectProcessor.Outbox.PollPhases
import ObjectProcessor.Outbox.Message
import ObjectProcessor.Callback.Correlation
import ObjectProcessor.Callback.Persist
import ObjectProcessor.Uploader.Initiate
import ObjectProcessor.Status.Verdict
import ObjectProcessor.Uploader.Status
import ObjectProcessor.Callback.Handler
import ObjectProcessor.Outbox.Claiming
import ObjectProcessor.Callback.Effect
import ObjectProcessor.Callback.Validators
import ObjectProcessor.Callback.FormFidelity
import ObjectProcessor.Callback.AllOrNothing
import ObjectProcessor.Outbox.Contract
import ObjectProcessor.Outbox.Transaction
import ObjectProcessor.Service.System
import ObjectProcessor.Service.Steps
import ObjectProcessor.Service.Entries
import ObjectProcessor.Service.Invariant
import ObjectProcessor.Service.Agreement
import ObjectProcessor.Service.Origins
import ObjectProcessor.Service.Journeys
import ObjectProcessor.Service.StatusAnswers
import ObjectProcessor.Service.MetadataReads
import ObjectProcessor.Service.Links
import ObjectProcessor.Service.Records
import ObjectProcessor.Service.Charges
import ObjectProcessor.Service.Exclusivity
import ObjectProcessor.Service.Snapshots
import ObjectProcessor.Service.Settlement
import ObjectProcessor.Service.Budget
import ObjectProcessor.Service.Audits
import ObjectProcessor.Service.Batches
import ObjectProcessor.Service.Delivery
import ObjectProcessor.Service.Stranding
import ObjectProcessor.Service.Duplicate
import ObjectProcessor.Service.Polling
import ObjectProcessor.Service.Process
import ObjectProcessor.Service.Verdicts
import ObjectProcessor.Http.Retry
import ObjectProcessor.Http.Telemetry
import ObjectProcessor.Http.Client
import ObjectProcessor.Logging.MaskCrn
import ObjectProcessor.Logging.Metrics
import ObjectProcessor.Audit.SendAuditEvent
import ObjectProcessor.Store.Indexes
import ObjectProcessor.Auth.Settings
import ObjectProcessor.Auth.Strategy
import ObjectProcessor.Auth.Acceptance
import ObjectProcessor.Library.Counting
import ObjectProcessor.Library.Relay
import ObjectProcessor.Service.Backlog
import ObjectProcessor.Service.PollRun
import ObjectProcessor.Audit.Messages
import ObjectProcessor.Service.PollRefinement
import ObjectProcessor.Service.AuditTrail
import ObjectProcessor.Service.AuditJoins
import ObjectProcessor.Service.AuditLimits
import ObjectProcessor.Service.Draining
import ObjectProcessor.Service.Waiting
import ObjectProcessor.Service.Relay
import ObjectProcessor.Service.Replays
import ObjectProcessor.Service.Counters
