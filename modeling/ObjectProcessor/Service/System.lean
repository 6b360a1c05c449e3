import Mathlib.Logic.Function.Basic
import ObjectProcessor.Library.Transition
import ObjectProcessor.Callback.Handler
import ObjectProcessor.Outbox.Finalise

/-!
# The running service

Callbacks, initiates and any number of outbox workers act on one store.  Every
database operation that is atomic is one action; between the actions of a worker
anything else may happen, and a worker may stop at any point.  The clock of the
system never goes back, but a worker acts on readings it took earlier.

`history` is a ghost: the events so far, the latest first.  No guard and no
update reads it.  `issued` records the identifiers drivers have generated, which
never repeat; only the guard of a callback reads it.
-/

namespace ObjectProcessor

open Library

/-- `BATCH_SIZE` -/
def batchSize : Nat := 10

/-- Where the current run of a worker is. -/
inductive RunPhase where
  | idle
  /-- In the claim loop, which captured `now` when the run started. -/
  | claiming (now : Time) (claimed : List OutboxEntry)
  /-- Between batches, with the claimed entries that are still to be published. -/
  | publishing (pending : List OutboxEntry)
  /-- A batch was answered at `since`; its finalisation transaction is to commit. -/
  | finalizing (batch : List OutboxEntry) (results : PublishResults) (rest : List OutboxEntry)
      (since : Time)
  /-- The transaction has committed; the failures it finalised are to be reported. -/
  | reporting (failed : List OutboxEntry) (rest : List OutboxEntry)

/-- The claimed entries a run has not finished with. -/
def RunPhase.held : RunPhase → List OutboxEntry
  | .idle => []
  | .claiming _ claimed => claimed
  | .publishing pending => pending
  | .finalizing batch _ rest _ => batch ++ rest
  | .reporting _ rest => rest

/-- What has happened. -/
inductive Event where
  | created (entry : OutboxEntry)
  | runStarted (worker : WorkerId)
  | claimed (worker : WorkerId) (entry : ObjectId) (attempt : Nat)
  | published (worker : WorkerId) (batch : List ObjectId) (results : PublishResults)
  | finalised (worker : WorkerId) (entry : ObjectId) (outcome : DeliveryOutcome)
  | audited (worker : WorkerId) (entry : ObjectId)
  | expired (entry : OutboxEntry)
  deriving DecidableEq

/-- The event leaves the claim of the entry as it is. -/
def Undisturbed (id : ObjectId) : Event → Prop
  | .claimed _ entry _ => entry ≠ id
  | .finalised _ entry _ => entry ≠ id
  | _ => True

/-- The event starts no run of the worker. -/
def SameRun (worker : WorkerId) : Event → Prop
  | .runStarted other => other ≠ worker
  | _ => True

/-- The events of a committed finalisation, the latest first. -/
def finalizationEvents (worker : WorkerId) (result : BatchFinalization) : List Event :=
  ((result.finalizedSuccessful.map fun entry => Event.finalised worker entry.id .succeeded) ++
    result.finalizedFailed.map fun entry => Event.finalised worker entry.id .failed).reverse

structure System where
  clock : Time
  store : Store
  run : WorkerId → RunPhase
  issued : List ObjectId
  history : List Event

/-- One atomic action of a party. -/
inductive Action where
  | tick (now : Time)
  | initiate (session : Session)
  | callback (env : CallbackEnv) (body : Json)
  | start (worker : WorkerId)
  | claim (worker : WorkerId) (entry : ObjectId)
  | claimsDone (worker : WorkerId)
  | publish (worker : WorkerId) (answer : PublishAnswer)
  | finalize (worker : WorkerId) (times : List Time) (publishedAt : Time)
  | report (worker : WorkerId)
  /-- The run throws, is given up at shutdown, or its process dies. -/
  | abandon (worker : WorkerId)
  /-- The index on `lastAttemptedAt` deletes a sent entry. -/
  | expire (entry : ObjectId)

namespace System

variable (cfg : Config) (system : System)

/-- The system before anything has been stored. -/
def initial : System where
  clock := 0
  store := { sessions := [], metadata := [], status := [], outbox := [] }
  run := fun _ => .idle
  issued := []
  history := []

def setRun (worker : WorkerId) (phase : RunPhase) : System :=
  { system with run := Function.update system.run worker phase }

def record (events : List Event) : System := { system with history := events ++ system.history }

def setOutbox (outbox : List OutboxEntry) : System :=
  { system with store := { system.store with outbox } }

/-- The upload was initiated: its identifiers are unique and its metadata valid. -/
def initiate (session : Session) : Option System :=
  if session.uploadId.truthy ∧ (isValidJourneyId cfg (session.journeyId.map Json.str)).isSome ∧
      baseMetadataSchema cfg session.metadata ∧
      ∀ stored ∈ system.store.sessions,
        stored.uploadId ≠ session.uploadId ∧ stored.journeyId ≠ session.journeyId then
    some { system with
      store := { system.store with sessions := system.store.sessions ++ [session] } }
  else
    none

/-- The identifiers a callback has generated. -/
def generatedIds (env : CallbackEnv) (body : Json) : List ObjectId :=
  let count := (normalisedFiles (body.get? "form")).length
  (List.range count).map env.documentId ++ (List.range count).map env.entryId

/-- A callback, whose transaction takes effect at one moment. -/
def callback (env : CallbackEnv) (body : Json) : Option System :=
  let ids := generatedIds env body
  if env.now ≤ system.clock ∧ ids.Nodup ∧ ∀ id ∈ ids, id ∉ system.issued then
    let result := uploadCallback cfg env system.store body
    let created := result.store.outbox.drop system.store.outbox.length
    some { system with
      store := result.store
      issued := ids ++ system.issued
      history := created.map Event.created ++ system.history }
  else
    none

def start (worker : WorkerId) : Option System :=
  match system.run worker with
  | .idle =>
      some ((system.setRun worker (.claiming system.clock [])).record [.runStarted worker])
  | _ => none

/-- One turn of the claim loop that finds an entry. -/
def claim (worker : WorkerId) (id : ObjectId) : Option System :=
  match system.run worker, system.store.outbox.find? fun entry => entry.id = id with
  | .claiming now claimed, some entry =>
      if claimed.length < cfg.outboxQueryLimit ∧
          isOldestProcessable cfg now system.store.outbox entry = true then
        let outbox := updateMany (fun other => decide (other.id = id))
          (claimUpdate cfg worker now) system.store.outbox
        some (((system.setOutbox outbox).setRun worker
          (.claiming now (claimed ++ [claimUpdate cfg worker now entry]))).record
            [.claimed worker id (entry.attempts + 1)])
      else
        none
  | _, _ => none

/-- The claim loop ends at its limit, or when no entry matches. -/
def claimsDone (worker : WorkerId) : Option System :=
  match system.run worker with
  | .claiming now claimed =>
      if cfg.outboxQueryLimit ≤ claimed.length ∨
          system.store.outbox.all (fun entry => !isProcessable cfg now entry) = true then
        some (system.setRun worker (if claimed = [] then .idle else .publishing claimed))
      else
        none
  | _ => none

/-- A batch is published and the answer arrives. -/
def publish (worker : WorkerId) (answer : PublishAnswer) : Option System :=
  match system.run worker with
  | .publishing pending =>
      let batch := pending.take batchSize
      let results := publishDocumentUploadMessageBatch batch answer
      some ((system.setRun worker
        (.finalizing batch results (pending.drop batchSize) system.clock)).record
          [.published worker (batch.map OutboxEntry.id) results])
  | _ => none

/-- The finalisation transaction commits.  Its calls have read the clock since the
answer arrived. -/
def finalize (worker : WorkerId) (times : List Time) (publishedAt : Time) : Option System :=
  match system.run worker with
  | .finalizing batch results rest since =>
      if times.length = results.successful.length + results.failed.length ∧
          ∀ time ∈ publishedAt :: times, since ≤ time ∧ time ≤ system.clock then
        let result := finalizeBatch cfg worker batch results times publishedAt
          system.store.outbox system.store.metadata
        some (({ system with
          store := { system.store with
            outbox := result.outbox
            metadata := result.metadata } }.setRun
            worker (.reporting result.finalizedFailed rest)).record
              (finalizationEvents worker result))
      else
        none
  | _ => none

/-- The entries `logTerminalFailuresIfAny` audits. -/
def terminalFailures (failed : List OutboxEntry) : List OutboxEntry :=
  system.store.outbox.filter fun entry =>
    decide (EntryId.file entry.fileId ∈ failed.map getEntryId) &&
      entry.status = .permanentFailure && cfg.outboxMaxAttempts ≤ entry.attempts

/-- The failures of the batch are reported, and the next batch is due. -/
def report (worker : WorkerId) : Option System :=
  match system.run worker with
  | .reporting failed rest =>
      some ((system.setRun worker (if rest = [] then .idle else .publishing rest)).record
        ((system.terminalFailures cfg failed).map fun entry => .audited worker entry.id))
  | _ => none

def abandon (worker : WorkerId) : Option System :=
  match system.run worker with
  | .idle => none
  | _ => some (system.setRun worker .idle)

/-- Only sent entries expire, some time after their last attempt. -/
def expire (id : ObjectId) : Option System :=
  match system.store.outbox.find? fun entry => entry.id = id with
  | some entry =>
      if entry.status = .sent ∧ entry.lastAttemptedAt.any (fun sentAt =>
          sentAt + 1000 * cfg.outboxSentTtlSeconds ≤ system.clock) = true then
        some ((system.setOutbox
          (system.store.outbox.filter fun other => decide (other.id ≠ id))).record [.expired entry])
      else
        none
  | none => none

def step : Action → Option System
  | .tick now => if system.clock ≤ now then some { system with clock := now } else none
  | .initiate session => system.initiate cfg session
  | .callback env body => system.callback cfg env body
  | .start worker => system.start worker
  | .claim worker id => system.claim cfg worker id
  | .claimsDone worker => system.claimsDone cfg worker
  | .publish worker answer => system.publish worker answer
  | .finalize worker times publishedAt => system.finalize cfg worker times publishedAt
  | .report worker => system.report cfg worker
  | .abandon worker => system.abandon worker
  | .expire id => system.expire cfg id

end System

/-- A state some run of the service reaches from the empty store. -/
def Reachable (cfg : Config) (system : System) : Prop :=
  Reaches (System.step cfg) System.initial system

/-- The end of a run that is accepted. -/
def System.after (cfg : Config) (actions : List Action)
    (accepted : (runActions (System.step cfg) System.initial actions).isSome = true) : System :=
  (runActions (System.step cfg) System.initial actions).get accepted

theorem Reachable.after (cfg : Config) (actions : List Action)
    (accepted : (runActions (System.step cfg) System.initial actions).isSome = true) :
    Reachable cfg (System.after cfg actions accepted) :=
  ⟨actions, (Option.some_get accepted).symm⟩

/-- A run leads on from where any front of it ends. -/
theorem System.reaches_after {cfg : Config} (front rest : List Action)
    (started : (runActions (System.step cfg) System.initial front).isSome = true)
    (accepted : (runActions (System.step cfg) System.initial (front ++ rest)).isSome = true) :
    Reaches (System.step cfg) (System.after cfg front started)
      (System.after cfg (front ++ rest) accepted) := by
  have first : runActions (System.step cfg) System.initial front =
      some (System.after cfg front started) := (Option.some_get started).symm
  have all : runActions (System.step cfg) System.initial (front ++ rest) =
      some (System.after cfg (front ++ rest) accepted) := (Option.some_get accepted).symm
  rw [runActions_append, first] at all
  exact ⟨rest, all⟩

end ObjectProcessor
