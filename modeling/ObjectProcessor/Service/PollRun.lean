import ObjectProcessor.Logging.MaskCrn
import ObjectProcessor.Outbox.Backlog
import ObjectProcessor.Service.Snapshots

/-!
# A poll run

`publishPendingMessages` as one function of what it meets at its awaits: how the publisher
answers, what the clock says, and which database call throws where.  Whatever ends a run,
its outcome and the backlog are emitted afterwards.
-/

namespace ObjectProcessor

open Library

/-- What a run logs. -/
inductive OutboxLog where
  | nonePending
  /-- The entry as it was before its expired claim was taken over. -/
  | reclaimed (entry : OutboxEntry)
  | claimed (entry : OutboxEntry)
  | processing (count : Nat)
  | publishError (code message : Option String)
  | unmatched (result : EntryId)
  | rejected (entry : OutboxEntry)
  | finalized (entry : OutboxEntry) (status : OutboxStatus) (failure : Option PublishError)
  | terminalImminent (entry : OutboxEntry) (failure : PublishError)
  /-- The reason is masked. -/
  | terminalFailure (entry : OutboxEntry) (reason : Option Text)
  | complete (sent failed rejected : Nat)
  | backlogUnread
  deriving DecidableEq

/-- The journey a line is logged under: `runWithEntryCorrelationId`. -/
def OutboxLog.correlationId : OutboxLog → Option String
  | .reclaimed entry | .claimed entry | .rejected entry | .finalized entry _ _
  | .terminalImminent entry _ | .terminalFailure entry _ =>
      some entry.payload.messaging.correlationId
  | _ => none

/-- The audit event of a terminal failure. -/
structure FailureAudit where
  correlationId : String
  entityId : String
  accounts : AuditAccounts
  reason : String
  code : Option String
  attempts : Nat
  deriving DecidableEq

/-- What a run meets while it publishes one batch. -/
structure BatchEnv where
  answer : List OutboxEntry → PublishAnswer
  /-- What the calls that finalise the entries read from the clock, in turn. -/
  callTime : Nat → Time
  publishedAt : Time
  transactionFails : Bool
  /-- Whether a query of `logTerminalFailuresIfAny` throws. -/
  reportFails : Bool

structure PollEnv where
  sessionStarts : Bool
  picks : Nat → LeastPick OutboxEntry.createdAt
  now : Time
  /-- The turn of the claim loop whose query throws, if one does. -/
  claimFails : Option Nat
  batches : Nat → BatchEnv
  backlogFails : Bool
  emittedAt : Time
  isMetricsEnabled : Bool

/-- What a run has stored and sent out so far. -/
structure PollRun where
  outbox : List OutboxEntry
  metadata : List MetadataDocument
  /-- The batches given to the publisher, in order. -/
  requests : List (List OutboxEntry)
  metrics : List Metric
  log : List OutboxLog
  audits : List FailureAudit
  threw : Bool

/-! ## Terminal failures -/

/-- What `maskCrnInText` is given for a customer reference of a payload. -/
def crnValue : Option Json → CrnValue
  | none => .undefined
  | some .null => .null
  | some (.num (.finite value)) =>
      if value.den = 1 then .number value.num else .text (codeUnits (Json.num (.finite value)).text)
  | some value => .text (codeUnits value.text)

/-- `failure.message || errMsg || 'terminal_failure'`, with the message the run passes. -/
def terminalReason (entry : OutboxEntry) : String :=
  (firstText [entry.error.bind PublishError.message, some "Failed to send message"]).getD
    "terminal_failure"

def terminalFailureLog (entry : OutboxEntry) : OutboxLog :=
  .terminalFailure entry (maskCrnInText (some (codeUnits (terminalReason entry)))
    (crnValue (entry.payload.metadata.get? "crn")))

/-- The event of a terminal failure, unless building its accounts throws. -/
def terminalFailureAudit (entry : OutboxEntry) : Option FailureAudit :=
  (buildAuditAccounts (entry.payload.metadata.get? "sbi")
      (entry.payload.metadata.get? "crn")).map fun accounts =>
    { correlationId := entry.payload.messaging.correlationId
      entityId := if entry.fileId.truthy then entry.fileId.text else entry.id.toHexString
      accounts
      reason := terminalReason entry
      code := firstText [entry.error.bind PublishError.code]
      attempts := entry.attempts }

/-- The results up to the first that throws, and whether one does. -/
def untilThrow {α : Type*} : List (Option α) → List α × Bool
  | [] => ([], false)
  | none :: _ => ([], true)
  | some value :: rest => (value :: (untilThrow rest).1, (untilThrow rest).2)

/-- The entries the terminal query finds. -/
def terminalFailuresIn (cfg : Config) (outbox : List OutboxEntry) (fileIds : List EntryId) :
    List OutboxEntry :=
  outbox.filter fun entry =>
    decide (EntryId.file entry.fileId ∈ fileIds) && entry.status = .permanentFailure &&
      cfg.outboxMaxAttempts ≤ entry.attempts

/-- `logTerminalFailuresIfAny`, when its queries succeed: the lines and the audit events, and
whether building one throws.  The cheaper count comes first. -/
def logTerminalFailuresIfAny (cfg : Config) (outbox : List OutboxEntry) (fileIds : List EntryId) :
    List OutboxLog × List FailureAudit × Bool :=
  if matchedCount (fun entry => decide (EntryId.file entry.fileId ∈ fileIds) &&
      decide (cfg.outboxMaxAttempts ≤ entry.attempts)) outbox = 0 then
    ([], [], false)
  else
    let terminalDocs := terminalFailuresIn cfg outbox fileIds
    let lines := untilThrow (terminalDocs.map fun entry =>
      if canConvert (entry.payload.metadata.get? "crn") then some (terminalFailureLog entry)
      else none)
    if lines.2 then (lines.1, [], true)
    else
      let events := untilThrow (terminalDocs.map terminalFailureAudit)
      (lines.1, events.1, events.2)

/-- The counters of a batch: one for each kind of failure it has. -/
def failureMetrics (isMetricsEnabled : Bool) (finalizedFailed : List OutboxEntry) : List Metric :=
  let count (entries : List OutboxEntry) (outcome : String) : List Metric :=
    if entries = [] then []
    else emitMetric isMetricsEnabled "outbox.publish_failed" entries.length
      (outcomeDimension outcome)
  count (retryableEntries finalizedFailed) "retryable" ++
    count (terminalEntries finalizedFailed) "permanent"

/-! ## One batch -/

section Batch

variable (cfg : Config) (workerId : WorkerId)

/-- `handleFailedEntries` -/
def handleFailedEntries (isMetricsEnabled reportFails : Bool) (finalizedFailed : List OutboxEntry)
    (failedResults : List PublishFailure) (run : PollRun) : PollRun :=
  if finalizedFailed = [] then run
  else
    let terminal := terminalEntries finalizedFailed
    let retryable := retryableEntries finalizedFailed
    let finalized (status : OutboxStatus) (entry : OutboxEntry) : OutboxLog :=
      .finalized entry status (some (buildEntryError entry failedResults))
    let counted := { run with
      metrics := run.metrics ++ failureMetrics isMetricsEnabled finalizedFailed
      log := run.log ++ retryable.map (finalized .pending) ++
        terminal.map (finalized .permanentFailure) ++
        terminal.map fun entry =>
          OutboxLog.terminalImminent entry (buildEntryError entry failedResults) }
    if reportFails then { counted with threw := true }
    else
      let (lines, events, throws) :=
        logTerminalFailuresIfAny cfg run.outbox (finalizedFailed.map getEntryId)
      { counted with
        log := counted.log ++ lines
        audits := counted.audits ++ events
        threw := throws }

/-- The line of a result that names no entry of the batch. -/
def unmatchedLog (batch : List OutboxEntry) (results : List EntryId) : List OutboxLog :=
  (results.filter fun result => !batch.any fun entry => getEntryId entry = result).map .unmatched

/-- A run when a batch was published, whatever the publisher answered. -/
def publishedRun (batch : List OutboxEntry) (answer : PublishAnswer) (results : PublishResults)
    (run : PollRun) : PollRun :=
  let errors : List OutboxLog :=
    match answer with
    | .answered _ => []
    | .threw code message => [.publishError code message]
  { run with
    requests := run.requests ++ [batch]
    log := run.log ++ errors ++ unmatchedLog batch results.successful ++
      unmatchedLog batch (results.failed.map PublishFailure.id) }

/-- A run when the transaction of a batch has committed. -/
def finalisedRun (result : BatchFinalization) (run : PollRun) : PollRun :=
  { run with
    outbox := result.outbox
    metadata := result.metadata
    log := run.log ++ (result.finalizedSuccessful.map fun entry => .finalized entry .sent none) ++
      result.rejected.map .rejected }

/-- One turn of the loop over the batches. -/
def publishBatch (isMetricsEnabled : Bool) (env : BatchEnv) (batch : List OutboxEntry)
    (run : PollRun) : PollRun :=
  let answer := env.answer batch
  let results := publishDocumentUploadMessageBatch batch answer
  let published := publishedRun batch answer results run
  if env.transactionFails then { published with threw := true }
  else
    let times := (List.range (results.successful.length + results.failed.length)).map env.callTime
    let result :=
      finalizeBatch cfg workerId batch results times env.publishedAt run.outbox run.metadata
    let handled := handleFailedEntries cfg isMetricsEnabled env.reportFails result.finalizedFailed
      results.failed (finalisedRun result published)
    if handled.threw then handled
    else { handled with
      log := handled.log ++ [.complete result.finalizedSuccessful.length
        result.finalizedFailed.length result.rejected.length] }

/-- The loop over the batches, from the given one on. -/
def publishBatches (isMetricsEnabled : Bool) (envs : Nat → BatchEnv) :
    Nat → Nat → List OutboxEntry → PollRun → PollRun
  | 0, _, _, run => run
  | turns + 1, index, pending, run =>
      if pending = [] then run
      else
        let after := publishBatch cfg workerId isMetricsEnabled (envs index)
          (pending.take batchSize) run
        if after.threw then after
        else publishBatches isMetricsEnabled envs turns (index + 1) (pending.drop batchSize) after

end Batch

/-! ## The whole run -/

/-- How the claim loop ends. -/
structure ClaimRun where
  claimed : List OutboxEntry
  outbox : List OutboxEntry
  log : List OutboxLog
  threw : Bool

section Run

variable (cfg : Config) (workerId : WorkerId) (env : PollEnv)

/-- The turns of the claim loop, one of whose queries may throw. -/
def claimRun : Nat → Nat → ClaimRun → ClaimRun
  | 0, _, run => run
  | remaining + 1, index, run =>
      if env.claimFails = some index then { run with threw := true }
      else
        match findOneAndUpdate (env.picks index) (isProcessable cfg env.now)
            (claimUpdate cfg workerId env.now) run.outbox with
        | none => run
        | some (entry, after) =>
            claimRun remaining (index + 1) { run with
              claimed := run.claimed ++ [claimedEntry cfg workerId env.now entry]
              outbox := after
              log := run.log ++ if entry.status = .processing then [.reclaimed entry] else [] }

/-- The body of the `try`. -/
def processPendingMessages (outbox : List OutboxEntry) (metadata : List MetadataDocument) :
    PollRun :=
  let claim := claimRun cfg workerId env cfg.outboxQueryLimit 0
    { claimed := [], outbox, log := [], threw := false }
  let claimed : PollRun :=
    { outbox := claim.outbox
      metadata
      requests := []
      metrics := []
      log := claim.log
      audits := []
      threw := claim.threw }
  if claim.threw then claimed
  else if claim.claimed = [] then { claimed with log := claimed.log ++ [.nonePending] }
  else
    publishBatches cfg workerId env.isMetricsEnabled env.batches claim.claimed.length 0
      claim.claimed { claimed with
        log := claimed.log ++ claim.claimed.map .claimed ++ [.processing claim.claimed.length] }

/-- `publishPendingMessages`, when nobody else changes the store meanwhile. -/
def publishPendingMessages (outbox : List OutboxEntry) (metadata : List MetadataDocument) :
    PollRun :=
  if env.sessionStarts then
    let run := processPendingMessages cfg workerId env outbox metadata
    { run with
      metrics := run.metrics ++ emitPollMetrics env.isMetricsEnabled
        (if run.threw then "failure" else "success")
        (if env.backlogFails then none else some (getPendingOutboxMetrics run.outbox run.outbox))
        env.emittedAt
      log := run.log ++ if env.backlogFails then [.backlogUnread] else [] }
  else
    { outbox, metadata, requests := [], metrics := [], log := [], audits := [], threw := true }

end Run

end ObjectProcessor
