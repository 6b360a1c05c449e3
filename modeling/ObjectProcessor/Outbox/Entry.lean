import ObjectProcessor.Library.Collection
import ObjectProcessor.Metadata.Document

/-!
# Outbox entries

An entry is created for every complete document of a callback.  A worker claims
it for a lease, charging an attempt at that moment, and later finalises the
claim: the entry is then sent, pending again, or given up.
-/

namespace ObjectProcessor

open Library

inductive OutboxStatus where
  | pending
  | processing
  | sent
  | permanentFailure
  deriving DecidableEq, Repr

inductive DeliveryOutcome where
  | succeeded
  | failed
  deriving DecidableEq, Repr

/-- The error recorded with a failed delivery. -/
@[ext] structure PublishError where
  type : String
  code : Option String
  message : Option String
  deriving DecidableEq, Repr

/-- A document of the outbox collection. -/
structure OutboxEntry where
  id : ObjectId
  messageId : ObjectId
  payload : MetadataDocument
  status : OutboxStatus
  attempts : Nat
  createdAt : Time
  claimedAt : Option Time
  claimedUntil : Option Time
  claimedBy : Option WorkerId
  lastAttemptedAt : Option Time
  error : Option PublishError
  deriving DecidableEq

namespace OutboxEntry

/-- `entry.payload.file.fileId`. -/
def fileId (entry : OutboxEntry) : Json := entry.payload.file.fileId

/-- Whether delivery is still to be attempted or under way. -/
def isOpen (entry : OutboxEntry) : Bool :=
  entry.status = .pending || entry.status = .processing

/-- The entry inserted for a document. -/
def created (now : Time) (id : ObjectId) (document : MetadataDocument) : OutboxEntry where
  id
  messageId := document.id
  payload := document
  status := .pending
  attempts := 0
  createdAt := now
  claimedAt := none
  claimedUntil := none
  claimedBy := none
  lastAttemptedAt := none
  error := none

end OutboxEntry

/-- `documents[index].file.fileStatus === 'complete'`. -/
def isComplete (document : MetadataDocument) : Bool :=
  document.file.fileStatus = some (.str "complete")

/-- The entries inserted for the stored documents of a callback. -/
def createOutboxEntries (now : Time) (entryId : Nat → ObjectId)
    (documents : List MetadataDocument) : List OutboxEntry :=
  (documents.filter isComplete).zipIdx.map fun document =>
    .created now (entryId document.2) document.1

theorem map_payload_createOutboxEntries (now : Time) (entryId : Nat → ObjectId)
    (documents : List MetadataDocument) :
    (createOutboxEntries now entryId documents).map OutboxEntry.payload =
      documents.filter isComplete := by
  rw [createOutboxEntries, List.map_map]
  exact List.zipIdx_map_fst 0 _

theorem map_id_createOutboxEntries (now : Time) (entryId : Nat → ObjectId)
    (documents : List MetadataDocument) :
    (createOutboxEntries now entryId documents).map OutboxEntry.id =
      (List.range (documents.filter isComplete).length).map entryId := by
  rw [createOutboxEntries, List.map_map, List.range_eq_range',
    ← List.zipIdx_map_snd 0 (documents.filter isComplete), List.map_map]
  rfl

/-- Every inserted entry is the fresh entry of some complete document. -/
theorem mem_createOutboxEntries {now : Time} {entryId : Nat → ObjectId}
    {documents : List MetadataDocument} {entry : OutboxEntry}
    (member : entry ∈ createOutboxEntries now entryId documents) :
    ∃ document ∈ documents, isComplete document = true ∧
      entry = .created now entry.id document := by
  obtain ⟨⟨document, index⟩, indexed, rfl⟩ := List.mem_map.mp member
  have kept := List.mem_filter.mp (List.fst_mem_of_mem_zipIdx indexed)
  exact ⟨document, kept.1, kept.2, rfl⟩

/-! ## Claims -/

/-- The filter of `claimProcessableOutboxEntries`. -/
def isProcessable (cfg : Config) (now : Time) (entry : OutboxEntry) : Bool :=
  entry.attempts < cfg.outboxMaxAttempts &&
    (entry.status = .pending ||
      entry.status = .processing && entry.claimedUntil.any fun limit => limit < now)

/-- The update of `claimProcessableOutboxEntries`. -/
def claimUpdate (cfg : Config) (instanceId : WorkerId) (now : Time) (entry : OutboxEntry) :
    OutboxEntry :=
  { entry with
    status := .processing
    claimedAt := some now
    claimedUntil := some (now + cfg.outboxClaimLeaseMs)
    claimedBy := some instanceId
    attempts := entry.attempts + 1 }

/-- Whether `findOneAndUpdate` may pick the entry: it matches, and no matching
entry was created earlier. -/
def isOldestProcessable (cfg : Config) (now : Time) (outbox : List OutboxEntry)
    (entry : OutboxEntry) : Bool :=
  isProcessable cfg now entry &&
    outbox.all fun other => !isProcessable cfg now other || entry.createdAt ≤ other.createdAt

theorem isProcessable_iff {cfg : Config} {now : Time} {entry : OutboxEntry} :
    isProcessable cfg now entry = true ↔ entry.attempts < cfg.outboxMaxAttempts ∧
      (entry.status = .pending ∨ entry.status = .processing ∧
        ∃ limit, entry.claimedUntil = some limit ∧ limit < now) := by
  simp [isProcessable, Option.any_eq_true]

theorem isOpen_of_isProcessable {cfg : Config} {now : Time} {entry : OutboxEntry}
    (processable : isProcessable cfg now entry = true) : entry.isOpen = true := by
  rcases (isProcessable_iff.mp processable).2 with pending | ⟨processing, _⟩
  · simp [OutboxEntry.isOpen, pending]
  · simp [OutboxEntry.isOpen, processing]

/-- A claimed entry is processable once its lease has passed. -/
theorem expired_of_isProcessable {cfg : Config} {now : Time} {entry : OutboxEntry}
    (processing : entry.status = .processing) (processable : isProcessable cfg now entry = true) :
    ∃ limit, entry.claimedUntil = some limit ∧ limit < now := by
  rcases (isProcessable_iff.mp processable).2 with pending | ⟨_, expired⟩
  · rw [pending] at processing
    cases processing
  · exact expired

/-- A claimed entry does not match again at the time it was claimed. -/
theorem isProcessable_claimUpdate (cfg : Config) (worker : WorkerId) (now : Time)
    (entry : OutboxEntry) : isProcessable cfg now (claimUpdate cfg worker now entry) = false := by
  refine Bool.eq_false_iff.mpr fun processable => ?_
  obtain ⟨limit, leased, expired⟩ := expired_of_isProcessable rfl processable
  cases leased
  exact Nat.not_lt.mpr (Nat.le_add_right ..) expired

/-! ## Finalisation -/

/-- The filter of `finalizeClaimedOutboxEntries`. -/
def finalizeFilter (entryIds : List ObjectId) (instanceId : WorkerId) (now : Time)
    (entry : OutboxEntry) : Bool :=
  decide (entry.id ∈ entryIds) && entry.status = .processing &&
    entry.claimedBy = some instanceId && entry.claimedUntil.any fun limit => now < limit

/-- The update made for a delivery that succeeded. -/
def finalizeSucceeded (now : Time) (entry : OutboxEntry) : OutboxEntry :=
  { entry with
    status := .sent
    lastAttemptedAt := some now
    claimedAt := none
    claimedUntil := none
    claimedBy := none
    error := none }

/-- A text that an aggregation stage reads as the path of a field. -/
def isFieldPath (text : String) : Bool := text.toList.head? = some '$'

/-- What a `$set` stage leaves in a field for which it may have a text.  A path stands for a
field that the entry does not have, and leaves the field unset. -/
def stageText (text stored : Option String) : Option String :=
  match text with
  | none => stored
  | some text => if isFieldPath text then none else some text

/-- A `$set` stage merges a nested object into the stored one: what the new object does not
have stays as it was. -/
def stageError (error : PublishError) (stored : Option PublishError) : PublishError where
  type := error.type
  code := stageText error.code (stored.bind PublishError.code)
  message := stageText error.message (stored.bind PublishError.message)

/-- `buildClaimedFailurePipeline`: the attempt was charged by the claim, so only
its time and error are recorded before the status is decided. -/
def buildClaimedFailurePipeline (maxAttempts : Nat) (error : Option PublishError) (now : Time)
    (entry : OutboxEntry) : OutboxEntry :=
  { entry with
    lastAttemptedAt := some now
    error :=
      match error with
      | some error => some (stageError error entry.error)
      | none => entry.error
    status := if maxAttempts ≤ entry.attempts then .permanentFailure else .pending
    claimedAt := none
    claimedUntil := none
    claimedBy := none }

def finalizeUpdate (cfg : Config) (deliveryOutcome : DeliveryOutcome)
    (error : Option PublishError) (now : Time) (entry : OutboxEntry) : OutboxEntry :=
  match deliveryOutcome with
  | .succeeded => finalizeSucceeded now entry
  | .failed => buildClaimedFailurePipeline cfg.outboxMaxAttempts error now entry

/-- `finalizeClaimedOutboxEntries`: the number of matched entries and the outbox
afterwards. -/
def finalizeClaimedOutboxEntries (cfg : Config) (outbox : List OutboxEntry)
    (entryIds : List ObjectId) (instanceId : WorkerId) (deliveryOutcome : DeliveryOutcome)
    (error : Option PublishError) (now : Time) : Nat × List OutboxEntry :=
  let filter := finalizeFilter entryIds instanceId now
  (matchedCount filter outbox,
    updateMany filter (finalizeUpdate cfg deliveryOutcome error now) outbox)

theorem stageText_eq_iff {text stored : Option String} :
    stageText text stored = text ↔
      (∀ value, text = some value → isFieldPath value = false) ∧ (text = none → stored = none) := by
  cases text with
  | none => simp [stageText]
  | some value => simp [stageText]

/-- An error is stored as it is given when none of its texts is a path, and the error it
replaces has nothing that it has not. -/
theorem stageError_eq_iff {error : PublishError} {stored : Option PublishError} :
    stageError error stored = error ↔
      stageText error.code (stored.bind PublishError.code) = error.code ∧
        stageText error.message (stored.bind PublishError.message) = error.message := by
  simp [stageError, PublishError.ext_iff]

theorem finalizeFilter_iff {entryIds : List ObjectId} {instanceId : WorkerId} {now : Time}
    {entry : OutboxEntry} :
    finalizeFilter entryIds instanceId now entry = true ↔ entry.id ∈ entryIds ∧
      entry.status = .processing ∧ entry.claimedBy = some instanceId ∧
      ∃ limit, entry.claimedUntil = some limit ∧ now < limit := by
  simp [finalizeFilter, Option.any_eq_true, and_assoc]

/-! ## What the updates leave alone -/

section Frame

variable (cfg : Config) (instanceId : WorkerId) (now : Time) (outcome : DeliveryOutcome)
  (error : Option PublishError) (entry : OutboxEntry)

@[simp] theorem claimUpdate_id : (claimUpdate cfg instanceId now entry).id = entry.id := rfl

@[simp] theorem claimUpdate_messageId :
    (claimUpdate cfg instanceId now entry).messageId = entry.messageId := rfl

@[simp] theorem claimUpdate_payload :
    (claimUpdate cfg instanceId now entry).payload = entry.payload := rfl

@[simp] theorem claimUpdate_status :
    (claimUpdate cfg instanceId now entry).status = .processing := rfl

@[simp] theorem finalizeUpdate_id :
    (finalizeUpdate cfg outcome error now entry).id = entry.id := by cases outcome <;> rfl

@[simp] theorem finalizeUpdate_messageId :
    (finalizeUpdate cfg outcome error now entry).messageId = entry.messageId := by
  cases outcome <;> rfl

@[simp] theorem finalizeUpdate_payload :
    (finalizeUpdate cfg outcome error now entry).payload = entry.payload := by
  cases outcome <;> rfl

@[simp] theorem finalizeUpdate_attempts :
    (finalizeUpdate cfg outcome error now entry).attempts = entry.attempts := by
  cases outcome <;> rfl

/-- A finalised entry is no longer under a claim. -/
theorem finalizeUpdate_status_ne_processing :
    (finalizeUpdate cfg outcome error now entry).status ≠ .processing := by
  cases outcome with
  | succeeded => simp [finalizeUpdate, finalizeSucceeded]
  | failed =>
      simp only [finalizeUpdate, buildClaimedFailurePipeline]
      split <;> simp

/-- Only a successful delivery makes an entry sent. -/
theorem finalizeUpdate_status_eq_sent :
    (finalizeUpdate cfg outcome error now entry).status = .sent ↔ outcome = .succeeded := by
  cases outcome with
  | succeeded => simp [finalizeUpdate, finalizeSucceeded]
  | failed =>
      simp only [finalizeUpdate, buildClaimedFailurePipeline]
      split <;> simp

end Frame

end ObjectProcessor
