import ObjectProcessor.Callback.Persist

/-!
# The local verdict on an upload

A poll looks up the session of the upload, then the status records of its journey,
and, when none of them is a failure, the messaging fields and the outbox entries of
the recorded files.  Every read has its own moment, so each collection is an
argument of its own.
-/

namespace ObjectProcessor

open Library

inductive UploadStatus where
  | pending
  | success
  | failure
  deriving DecidableEq, Repr

inductive VerdictStage where
  | awaitingCallback
  | accepted
  | rejectedByProcessor
  | deliveryFailed
  deriving DecidableEq, Repr

/-- An error as a poll returns it, without the received value. -/
structure ResponseError where
  field : String
  errorType : String
  deriving DecidableEq, Repr

structure LocalVerdict where
  uploadStatus : UploadStatus
  stage : VerdictStage
  errors : Option (List ResponseError)
  deriving DecidableEq, Repr

def DEFAULT_PENDING_STATUS : LocalVerdict where
  uploadStatus := .pending
  stage := .awaitingCallback
  errors := none

def ACCEPTED_STATUS : LocalVerdict where
  uploadStatus := .success
  stage := .accepted
  errors := none

def sanitiseErrorsForResponse (errors : List StatusError) : List ResponseError :=
  errors.map fun error => { field := error.field, errorType := error.errorType }

/-! ## The reads -/

def getSessionByUploadId (sessions : List Session) (uploadId : Json) : Option Session :=
  sessions.find? fun session => session.uploadId = uploadId

/-- The records of the journey, the earliest first, up to the limit. -/
def getStatusByCorrelationId (cfg : Config) (status : List StatusRecord) (correlationId : String) :
    List StatusRecord :=
  ((status.filter fun record => record.correlationId = correlationId).insertionSort
    fun left right => left.timestamp ≤ right.timestamp).take cfg.statusQueryLimit

def getMetadataMessagingByFileIds (metadata : List MetadataDocument) (fileIds : List String) :
    List MetadataDocument :=
  metadata.filter fun document => document.fileId ∈ fileIds.map Json.str

def getOutboxStatusesByFileIds (outbox : List OutboxEntry) (fileIds : List String) :
    List OutboxEntry :=
  outbox.filter fun entry => entry.fileId ∈ fileIds.map Json.str

/-! ## The verdict -/

/-- `outboxByFileId.get(fileId)`: the last record of a file stays in the map. -/
def outboxByFileId (outboxRecords : List OutboxEntry) (fileId : String) : Option OutboxEntry :=
  outboxRecords.reverse.find? fun record => record.fileId = .str fileId

/-- The file has been given up and, as far as the poll has read, not published. -/
def isUnpublishedPermanentFailure (metadataRecords : List MetadataDocument)
    (outboxRecords : List OutboxEntry) (fileId : String) : Bool :=
  let outboxEntry := outboxByFileId outboxRecords fileId
  let metadata := metadataRecords.find? fun document => document.fileId = .str fileId
  let isPublished := metadata.any fun document => document.messaging.publishedAt.isSome
  outboxEntry.any (fun record => record.status = .permanentFailure) && !isPublished

def hasUnpublishedPermanentFailure (statusRecords : List StatusRecord)
    (metadata : List MetadataDocument) (outbox : List OutboxEntry) : Bool :=
  let fileIds := statusRecords.filterMap fun record => nonEmptyText? (some record.fileId)
  let metadataRecords := getMetadataMessagingByFileIds metadata fileIds
  let outboxRecords := getOutboxStatusesByFileIds outbox fileIds
  fileIds.any (isUnpublishedPermanentFailure metadataRecords outboxRecords)

/-- The verdict on a journey with records. -/
def verdictOfRecords (statusRecords : List StatusRecord) (metadata : List MetadataDocument)
    (outbox : List OutboxEntry) : LocalVerdict :=
  let failedStatusRecords := statusRecords.filter fun record => !record.validated
  if failedStatusRecords ≠ [] then
    let processorErrors :=
      sanitiseErrorsForResponse (failedStatusRecords.flatMap fun record => record.errors.getD [])
    { uploadStatus := .failure
      stage := .rejectedByProcessor
      errors := some
        (if processorErrors ≠ [] then processorErrors
        else [{ field := "payload", errorType := "validation-failed" }]) }
  else if hasUnpublishedPermanentFailure statusRecords metadata outbox then
    { uploadStatus := .failure
      stage := .deliveryFailed
      errors := some [{ field := "delivery", errorType := "permanent-failure" }] }
  else
    ACCEPTED_STATUS

/-- The journey of an upload: its session is stored and carries one. -/
def journeyOf (sessions : List Session) (uploadId : Json) : Option String :=
  ((getSessionByUploadId sessions uploadId).bind Session.journeyId).filter fun id => id ≠ ""

def getLocalVerdictByUploadId (cfg : Config) (sessions : List Session)
    (status : List StatusRecord) (metadata : List MetadataDocument) (outbox : List OutboxEntry)
    (uploadId : Json) : LocalVerdict :=
  match journeyOf sessions uploadId with
  | none => DEFAULT_PENDING_STATUS
  | some journeyId =>
      let statusRecords := getStatusByCorrelationId cfg status journeyId
      if statusRecords = [] then DEFAULT_PENDING_STATUS
      else verdictOfRecords statusRecords metadata outbox

/-- The status records the verdict of an upload is based on. -/
def recordsRead (cfg : Config) (sessions : List Session) (status : List StatusRecord)
    (uploadId : Json) : List StatusRecord :=
  (journeyOf sessions uploadId).elim [] (getStatusByCorrelationId cfg status)

theorem getLocalVerdictByUploadId_eq (cfg : Config) (sessions : List Session)
    (status : List StatusRecord) (metadata : List MetadataDocument) (outbox : List OutboxEntry)
    (uploadId : Json) :
    getLocalVerdictByUploadId cfg sessions status metadata outbox uploadId =
      if recordsRead cfg sessions status uploadId = [] then DEFAULT_PENDING_STATUS
      else verdictOfRecords (recordsRead cfg sessions status uploadId) metadata outbox := by
  unfold getLocalVerdictByUploadId recordsRead
  cases journeyOf sessions uploadId <;> rfl

/-! ## What a verdict says -/

section Reads

variable {cfg : Config} {status : List StatusRecord} {journeyId : String}

/-- The journey has fewer records than a query returns. -/
def FewRecords (cfg : Config) (status : List StatusRecord) (journeyId : String) : Prop :=
  (status.filter fun record => record.correlationId = journeyId).length < cfg.statusQueryLimit

/-- The records read belong to the journey. -/
theorem mem_of_getStatusByCorrelationId {record : StatusRecord}
    (member : record ∈ getStatusByCorrelationId cfg status journeyId) :
    record ∈ status ∧ record.correlationId = journeyId := by
  have sorted := List.mem_of_mem_take member
  have kept := List.mem_filter.mp ((List.mem_insertionSort _).mp sorted)
  exact ⟨kept.1, by simpa using kept.2⟩

/-- Up to the limit every record of the journey is read. -/
theorem mem_getStatusByCorrelationId_of_le
    (within : (status.filter fun record => record.correlationId = journeyId).length ≤
      cfg.statusQueryLimit)
    {record : StatusRecord} (member : record ∈ status) (same : record.correlationId = journeyId) :
    record ∈ getStatusByCorrelationId cfg status journeyId := by
  unfold getStatusByCorrelationId
  rw [List.take_of_length_le]
  · exact (List.mem_insertionSort _).mpr (List.mem_filter.mpr ⟨member, by simpa using same⟩)
  · rwa [List.length_insertionSort]

theorem mem_getStatusByCorrelationId (few : FewRecords cfg status journeyId)
    {record : StatusRecord} (member : record ∈ status) (same : record.correlationId = journeyId) :
    record ∈ getStatusByCorrelationId cfg status journeyId :=
  mem_getStatusByCorrelationId_of_le (Nat.le_of_lt few) member same

section GivenUp

variable {statusRecords : List StatusRecord} {metadata : List MetadataDocument}
  {outbox : List OutboxEntry}

theorem exists_permanentFailure
    (givenUp : hasUnpublishedPermanentFailure statusRecords metadata outbox = true) :
    ∃ record ∈ statusRecords, (∃ fileId, record.fileId = .str fileId ∧ fileId ≠ "") ∧
      ∃ entry ∈ outbox, entry.fileId = record.fileId ∧ entry.status = .permanentFailure := by
  obtain ⟨fileId, named, counts⟩ := List.any_eq_true.mp givenUp
  obtain ⟨record, member, isText⟩ := List.mem_filterMap.mp named
  obtain ⟨isFile, nonempty⟩ := nonEmptyText?_eq_some.mp isText
  have file := Option.some.inj isFile
  rw [isUnpublishedPermanentFailure, Bool.and_eq_true] at counts
  obtain ⟨entry, found, status⟩ := (Option.any_eq_true _ _).mp counts.1
  have sameFile : entry.fileId = .str fileId := by simpa using List.find?_some found
  have stored := List.mem_reverse.mp (List.mem_of_find?_eq_some found)
  exact ⟨record, member, ⟨fileId, file, nonempty⟩, entry, (List.mem_filter.mp stored).1,
    sameFile.trans file.symm, by simpa using status⟩

/-- An entry that was given up counts while no document of its file is published. -/
theorem hasUnpublishedPermanentFailure_of_entry (files : UniqueBy OutboxEntry.fileId outbox)
    {record : StatusRecord} (member : record ∈ statusRecords) {fileId : String}
    (named : record.fileId = .str fileId) (nonempty : fileId ≠ "") {entry : OutboxEntry}
    (stored : entry ∈ outbox) (same : entry.fileId = record.fileId)
    (status : entry.status = .permanentFailure)
    (unpublished : ∀ document ∈ metadata, document.fileId = entry.fileId →
      document.messaging.publishedAt = none) :
    hasUnpublishedPermanentFailure statusRecords metadata outbox = true := by
  have listed : fileId ∈ statusRecords.filterMap fun record =>
      nonEmptyText? (some record.fileId) :=
    List.mem_filterMap.mpr ⟨record, member,
      nonEmptyText?_eq_some.mpr ⟨congrArg some named, nonempty⟩⟩
  refine List.any_eq_true.mpr ⟨fileId, listed, ?_⟩
  rw [isUnpublishedPermanentFailure, Bool.and_eq_true]
  constructor
  · have found : outboxByFileId (getOutboxStatusesByFileIds outbox (statusRecords.filterMap
        fun record => nonEmptyText? (some record.fileId))) fileId = some entry := by
      refine find?_eq_some_of_unique (List.mem_reverse.mpr (List.mem_filter.mpr ⟨stored, ?_⟩))
        (by simp [same, named]) ?_
      · simpa [same, named] using listed
      · intro other isOther sameFile
        have otherStored := (List.mem_filter.mp (List.mem_reverse.mp isOther)).1
        exact files.eq_of_key otherStored stored (by simpa [same, named] using sameFile)
    simp [found, status]
  · rw [Bool.not_eq_true', Option.any_eq_false]
    intro document found
    have isFile : document.fileId = .str fileId := by simpa using List.find?_some found
    have isStored := (List.mem_filter.mp (List.mem_of_find?_eq_some found)).1
    simp [unpublished document isStored (by rw [isFile, same, named])]

end GivenUp

/-- The verdicts and what the reads have found for each. -/
inductive VerdictCase (cfg : Config) (sessions : List Session) (status : List StatusRecord)
    (metadata : List MetadataDocument) (outbox : List OutboxEntry) (uploadId : Json) :
    LocalVerdict → Prop where
  | awaiting (nothing : ∀ journeyId, journeyOf sessions uploadId = some journeyId →
        getStatusByCorrelationId cfg status journeyId = []) :
      VerdictCase cfg sessions status metadata outbox uploadId DEFAULT_PENDING_STATUS
  | rejected {journeyId : String} (session : journeyOf sessions uploadId = some journeyId)
      {record : StatusRecord} (member : record ∈ getStatusByCorrelationId cfg status journeyId)
      (failed : record.validated = false) (errors : Option (List ResponseError)) :
      VerdictCase cfg sessions status metadata outbox uploadId
        ⟨.failure, .rejectedByProcessor, errors⟩
  | deliveryFailed {journeyId : String} (session : journeyOf sessions uploadId = some journeyId)
      (validated : ∀ record ∈ getStatusByCorrelationId cfg status journeyId,
        record.validated = true)
      (givenUp : hasUnpublishedPermanentFailure (getStatusByCorrelationId cfg status journeyId)
        metadata outbox = true) (errors : Option (List ResponseError)) :
      VerdictCase cfg sessions status metadata outbox uploadId
        ⟨.failure, .deliveryFailed, errors⟩
  | accepted {journeyId : String} (session : journeyOf sessions uploadId = some journeyId)
      (recorded : getStatusByCorrelationId cfg status journeyId ≠ [])
      (validated : ∀ record ∈ getStatusByCorrelationId cfg status journeyId,
        record.validated = true)
      (delivering : hasUnpublishedPermanentFailure
        (getStatusByCorrelationId cfg status journeyId) metadata outbox = false) :
      VerdictCase cfg sessions status metadata outbox uploadId ACCEPTED_STATUS

theorem getLocalVerdictByUploadId_case (cfg : Config) (sessions : List Session)
    (status : List StatusRecord) (metadata : List MetadataDocument) (outbox : List OutboxEntry)
    (uploadId : Json) :
    VerdictCase cfg sessions status metadata outbox uploadId
      (getLocalVerdictByUploadId cfg sessions status metadata outbox uploadId) := by
  unfold getLocalVerdictByUploadId
  split
  · rename_i unknown
    exact .awaiting fun journeyId session => by simp [unknown] at session
  · rename_i journeyId session
    by_cases recorded : getStatusByCorrelationId cfg status journeyId = []
    · simp only [recorded, ↓reduceIte]
      refine .awaiting fun other sameSession => ?_
      rw [session] at sameSession
      rwa [← Option.some.inj sameSession]
    · simp only [recorded, ↓reduceIte, verdictOfRecords]
      split
      · rename_i failures
        obtain ⟨record, member⟩ := List.exists_mem_of_ne_nil _ failures
        have failed := List.mem_filter.mp member
        exact .rejected session failed.1 (by simpa using failed.2) _
      · rename_i none
        have validated : ∀ record ∈ getStatusByCorrelationId cfg status journeyId,
            record.validated = true := by simpa using none
        split
        · rename_i givenUp
          exact .deliveryFailed session validated givenUp _
        · rename_i delivering
          exact .accepted session recorded validated (by simpa using delivering)

end Reads

end ObjectProcessor
