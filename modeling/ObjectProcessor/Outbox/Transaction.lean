import ObjectProcessor.Outbox.Claiming
import ObjectProcessor.Outbox.Finalise

/-!
# The finalisation transaction

`withTransaction` runs its callback again when an attempt fails for a transient
reason.  The lists of finalised entries are variables outside the callback, which
every run that gets as far as its last update overwrites.  What a commit leaves is
decided entry by entry: by the first call that finds the claim of the entry valid.  The
error of a failure is merged into the one the entry has from an earlier failure.
-/

namespace ObjectProcessor

open Library

/-! ## Running the callback -/

/-- The claimed entries of one request, with distinct identifiers and distinct names. -/
structure ClaimedBatch where
  entries : List OutboxEntry
  distinct : UniqueBy OutboxEntry.id entries
  named : UniqueBy getEntryId entries

/-- How an attempt to run the transaction ends. -/
inductive AttemptEnd where
  /-- An update of the outbox throws. -/
  | threw
  /-- The update of the metadata or the commit throws. -/
  | rolledBack
  | committed
  deriving DecidableEq

/-- One run of the callback, on what is stored when the attempt begins. -/
structure TransactionAttempt where
  outbox : List OutboxEntry
  metadata : List MetadataDocument
  unique : UniqueBy OutboxEntry.id outbox
  /-- What the calls that finalise the entries read from the clock, in turn. -/
  clock : Nat → Time
  publishedAt : Time
  ends : AttemptEnd

/-- The variables of `publishPendingMessages` that the callback assigns. -/
structure FinalizationLists where
  finalizedSuccessful : List OutboxEntry
  finalizedFailed : List OutboxEntry
  rejected : List OutboxEntry

inductive TransactionOutcome where
  | threw
  | committed (lists : FinalizationLists) (attempt : TransactionAttempt)

/-- The lists as `publishPendingMessages` declares them. -/
def FinalizationLists.empty : FinalizationLists := ⟨[], [], []⟩

def BatchFinalization.lists (result : BatchFinalization) : FinalizationLists :=
  ⟨result.finalizedSuccessful, result.finalizedFailed, result.rejected⟩

section Callback

variable (cfg : Config) (workerId : WorkerId) (batch : ClaimedBatch) (results : PublishResults)

namespace TransactionAttempt

variable (attempt : TransactionAttempt)

/-- The readings of the clock, one for each item of the answer. -/
def times : List Time :=
  (List.range (results.successful.length + results.failed.length)).map attempt.clock

/-- What the callback makes of the stored documents. -/
def result : BatchFinalization :=
  finalizeBatch cfg workerId batch.entries results (attempt.times results) attempt.publishedAt
    attempt.outbox attempt.metadata

/-- What is stored when the attempt has ended. -/
def stored : List OutboxEntry × List MetadataDocument :=
  match attempt.ends with
  | .committed =>
      ((attempt.result cfg workerId batch results).outbox,
        (attempt.result cfg workerId batch results).metadata)
  | _ => (attempt.outbox, attempt.metadata)

/-- The calls of `finalizeEntries` for the entries named as successful, and then for those
named as failed, each with its reading of the clock. -/
def sentCalls : List (OutboxEntry × Time) :=
  (mapPublishResultsToEntries batch.entries results.successful).zip (attempt.times results)

def failedCalls : List (OutboxEntry × Time) :=
  (mapPublishResultsToEntries batch.entries (results.failed.map PublishFailure.id)).zip
    ((attempt.times results).drop
      (mapPublishResultsToEntries batch.entries results.successful).length)

end TransactionAttempt

/-- `session.withTransaction(…)`: the attempts in turn, until one commits or none is left. -/
def withTransaction : FinalizationLists → List TransactionAttempt → TransactionOutcome
  | _, [] => .threw
  | lists, attempt :: rest =>
      let assigned := (attempt.result cfg workerId batch results).lists
      match attempt.ends with
      | .threw => withTransaction lists rest
      | .rolledBack => withTransaction assigned rest
      | .committed => .committed assigned attempt

end Callback

/-! ## What the calls do to an entry -/

section Settle

variable (cfg : Config) (workerId : WorkerId) (outcome : DeliveryOutcome)
  (failedResults : List PublishFailure)

/-- The first call that finds the claim of the entry valid finalises it. -/
def settle (calls : List (OutboxEntry × Time)) (entry : OutboxEntry) : OutboxEntry :=
  match calls.find? fun call => finalizeFilter [call.1.id] workerId call.2 entry with
  | some call =>
      finalizeUpdate cfg outcome (callError outcome call.1 failedResults) call.2 entry
  | none => entry

variable {cfg workerId outcome failedResults}

theorem settle_of_not_processing (calls : List (OutboxEntry × Time)) {entry : OutboxEntry}
    (settled : entry.status ≠ .processing) :
    settle cfg workerId outcome failedResults calls entry = entry := by
  have silent : (calls.find? fun call => finalizeFilter [call.1.id] workerId call.2 entry) =
      none := by
    refine List.find?_eq_none.mpr fun call _ matched => settled ?_
    exact (finalizeFilter_iff.mp matched).2.1
  rw [settle, silent]

theorem settle_cons (claimed : OutboxEntry) (now : Time) (rest : List (OutboxEntry × Time))
    (entry : OutboxEntry) :
    settle cfg workerId outcome failedResults ((claimed, now) :: rest) entry =
      settle cfg workerId outcome failedResults rest
        (if finalizeFilter [claimed.id] workerId now entry then
          finalizeUpdate cfg outcome (callError outcome claimed failedResults) now entry
        else entry) := by
  cases matched : finalizeFilter [claimed.id] workerId now entry with
  | false => simp [settle, matched]
  | true =>
      -- A finalised entry is under no claim, so the later calls pass it over.
      rw [if_pos rfl, settle_of_not_processing _ (finalizeUpdate_status_ne_processing _ _ _ _ _)]
      simp [settle, matched]

/-- The calls of `finalizeEntries` settle every entry on its own. -/
theorem finalizeEntries_outbox (calls : List (OutboxEntry × Time)) (outbox : List OutboxEntry) :
    (finalizeEntries cfg workerId outcome failedResults calls outbox).outbox =
      outbox.map (settle cfg workerId outcome failedResults calls) := by
  induction calls generalizing outbox with
  | nil =>
      have untouched : settle cfg workerId outcome failedResults [] = id := rfl
      rw [finalizeEntries, untouched, List.map_id]
  | cons call rest ih =>
      obtain ⟨claimed, now⟩ := call
      have others : (finalizeEntries cfg workerId outcome failedResults ((claimed, now) :: rest)
          outbox).outbox = (finalizeEntries cfg workerId outcome failedResults rest
            (updateMany (finalizeFilter [claimed.id] workerId now)
              (finalizeUpdate cfg outcome (callError outcome claimed failedResults) now)
              outbox)).outbox := by
        simp only [finalizeEntries, finalizeClaimedOutboxEntries]
        by_cases one : matchedCount (finalizeFilter [claimed.id] workerId now) outbox = 1
        · simp only [one, ↓reduceIte]
        · simp only [one, ↓reduceIte]
      rw [others, ih, updateMany, List.map_map]
      refine List.map_congr_left fun entry _ => ?_
      rw [settle_cons, Function.comp_apply]

variable (cfg workerId outcome failedResults)

/-- Some call found the claim of the entry valid, or the entry stays as it is. -/
theorem settle_cases (calls : List (OutboxEntry × Time)) (entry : OutboxEntry) :
    (∃ call ∈ calls, finalizeFilter [call.1.id] workerId call.2 entry = true ∧
        settle cfg workerId outcome failedResults calls entry =
          finalizeUpdate cfg outcome (callError outcome call.1 failedResults) call.2 entry) ∨
      (∀ call ∈ calls, finalizeFilter [call.1.id] workerId call.2 entry = false) ∧
        settle cfg workerId outcome failedResults calls entry = entry := by
  cases found : calls.find? fun call => finalizeFilter [call.1.id] workerId call.2 entry with
  | none =>
      refine Or.inr ⟨fun call member => ?_, by rw [settle, found]⟩
      simpa using List.find?_eq_none.mp found call member
  | some call =>
      have matched := List.find?_some found
      refine Or.inl ⟨call, List.mem_of_find?_eq_some found, matched, ?_⟩
      rw [settle, found]

end Settle

/-- The transaction settles every entry by the calls for the sent entries, and then by the
others. -/
theorem finalizeBatch_outbox (cfg : Config) (workerId : WorkerId) (batch : List OutboxEntry)
    (results : PublishResults) (times : List Time) (publishedAt : Time)
    (outbox : List OutboxEntry) (metadata : List MetadataDocument) :
    (finalizeBatch cfg workerId batch results times publishedAt outbox metadata).outbox =
      outbox.map fun entry =>
        settle cfg workerId .failed results.failed
          ((mapPublishResultsToEntries batch (results.failed.map PublishFailure.id)).zip
            (times.drop (mapPublishResultsToEntries batch results.successful).length))
          (settle cfg workerId .succeeded []
            ((mapPublishResultsToEntries batch results.successful).zip times) entry) := by
  simp only [finalizeBatch, finalizeEntries_outbox, List.map_map]
  rfl

/-- An entry listed as failed was failed by a call that found its claim valid. -/
theorem exists_failed_call {cfg : Config} {workerId : WorkerId} {batch : List OutboxEntry}
    {results : PublishResults} {times : List Time} {publishedAt : Time}
    {outbox : List OutboxEntry} {metadata : List MetadataDocument}
    {fate : OutboxEntry → OutboxEntry}
    (spec : BatchSpec cfg workerId batch outbox
      (finalizeBatch cfg workerId batch results times publishedAt outbox metadata) fate)
    {entry : OutboxEntry} (member : entry ∈ outbox)
    (change : Finalised cfg workerId .failed entry (fate entry)) :
    ∃ snapshot ∈ batch, ∃ time ∈ times,
      finalizeFilter [snapshot.id] workerId time entry = true ∧
        fate entry = finalizeUpdate cfg .failed (callError .failed snapshot results.failed) time
          entry := by
  have same := List.map_inj_left.mp ((finalizeBatch_outbox cfg workerId batch results times
    publishedAt outbox metadata).symm.trans spec.outbox_eq) entry member
  rw [← same] at change ⊢
  generalize (mapPublishResultsToEntries batch results.successful).zip times = sentCalls
    at change ⊢
  have unsent : settle cfg workerId .succeeded [] sentCalls entry = entry := by
    rcases settle_cases cfg workerId .succeeded [] sentCalls entry with
      ⟨call, _, _, sent⟩ | ⟨_, kept⟩
    · rw [sent, settle_of_not_processing _ (finalizeUpdate_status_ne_processing _ _ _ _ _)]
        at change
      exact absurd (change.sent_iff.mp rfl) (by simp)
    · exact kept
  rw [unsent] at change ⊢
  rcases settle_cases cfg workerId .failed results.failed
    ((mapPublishResultsToEntries batch (results.failed.map PublishFailure.id)).zip
      (times.drop (mapPublishResultsToEntries batch results.successful).length)) entry with
    ⟨call, called, matched, failed⟩ | ⟨_, kept⟩
  · have inCalls := List.of_mem_zip called
    exact ⟨call.1, (mem_mapPublishResultsToEntries inCalls.1).1, call.2,
      List.mem_of_mem_drop inCalls.2, matched, failed⟩
  · rw [kept] at change
    exact absurd change.processing change.not_processing

/-- One of the calls for the snapshot finds that the stored entry is still under its claim. -/
def InTime (workerId : WorkerId) (calls : List (OutboxEntry × Time))
    (snapshot entry : OutboxEntry) : Prop :=
  ∃ time, (snapshot, time) ∈ calls ∧ finalizeFilter [snapshot.id] workerId time entry = true

theorem InTime.id_eq {workerId : WorkerId} {calls : List (OutboxEntry × Time)}
    {snapshot entry : OutboxEntry} (inTime : InTime workerId calls snapshot entry) :
    entry.id = snapshot.id := by
  obtain ⟨time, _, matched⟩ := inTime
  exact List.mem_singleton.mp (finalizeFilter_iff.mp matched).1

/-! ## Which entries are called for -/

/-- Names are distinct, so a result picks the one entry of its name. -/
theorem ClaimedBatch.mem_mapPublishResultsToEntries (batch : ClaimedBatch)
    {results : List EntryId} {snapshot : OutboxEntry} :
    snapshot ∈ mapPublishResultsToEntries batch.entries results ↔
      snapshot ∈ batch.entries ∧ getEntryId snapshot ∈ results := by
  refine ⟨ObjectProcessor.mem_mapPublishResultsToEntries, fun ⟨member, named⟩ => ?_⟩
  refine List.mem_filterMap.mpr ⟨_, named, ?_⟩
  refine find?_eq_some_of_unique (List.mem_reverse.mpr member) (by simp) fun other found same => ?_
  exact batch.named.eq_of_key (List.mem_reverse.mp found) member (of_decide_eq_true same)

/-- A list is named by its pairs with as many readings of the clock. -/
theorem exists_mem_zip_iff {calls : List OutboxEntry} {times : List Time}
    (enough : calls.length ≤ times.length) {snapshot : OutboxEntry} :
    (∃ time, (snapshot, time) ∈ calls.zip times) ↔ snapshot ∈ calls := by
  have names : (calls.zip times).map Prod.fst = calls := List.map_fst_zip enough
  constructor
  · rintro ⟨time, member⟩
    exact (List.of_mem_zip member).1
  · intro member
    rw [← names] at member
    obtain ⟨⟨_, time⟩, found, rfl⟩ := List.mem_map.mp member
    exact ⟨time, found⟩

theorem length_mapPublishResultsToEntries_le (batch : List OutboxEntry) (results : List EntryId) :
    (mapPublishResultsToEntries batch results).length ≤ results.length :=
  List.length_filterMap_le ..

namespace TransactionAttempt

section Calls

variable (batch : ClaimedBatch) (results : PublishResults) (attempt : TransactionAttempt)

/-- Exactly the entries named as successful are called for first. -/
theorem exists_sentCalls_iff {snapshot : OutboxEntry} :
    (∃ time, (snapshot, time) ∈ attempt.sentCalls batch results) ↔
      snapshot ∈ batch.entries ∧ getEntryId snapshot ∈ results.successful := by
  have enough := length_mapPublishResultsToEntries_le batch.entries results.successful
  rw [sentCalls, exists_mem_zip_iff, batch.mem_mapPublishResultsToEntries]
  simp only [times, List.length_map, List.length_range]
  omega

/-- Exactly the entries named as failed are called for after them. -/
theorem exists_failedCalls_iff {snapshot : OutboxEntry} :
    (∃ time, (snapshot, time) ∈ attempt.failedCalls batch results) ↔
      snapshot ∈ batch.entries ∧
        getEntryId snapshot ∈ results.failed.map PublishFailure.id := by
  have sent := length_mapPublishResultsToEntries_le batch.entries results.successful
  have failed := length_mapPublishResultsToEntries_le batch.entries
    (results.failed.map PublishFailure.id)
  rw [List.length_map] at failed
  rw [failedCalls, exists_mem_zip_iff, batch.mem_mapPublishResultsToEntries]
  simp only [times, List.length_drop, List.length_map, List.length_range]
  omega

end Calls

section Fate

variable (cfg : Config) (workerId : WorkerId) (batch : ClaimedBatch) (results : PublishResults)
  (attempt : TransactionAttempt)

/-- What the callback makes of a stored entry. -/
def fate (entry : OutboxEntry) : OutboxEntry :=
  settle cfg workerId .failed results.failed (attempt.failedCalls batch results)
    (settle cfg workerId .succeeded [] (attempt.sentCalls batch results) entry)

/-- What the callback makes of a stored metadata document. -/
def date (document : MetadataDocument) : MetadataDocument :=
  if EntryId.file document.file.fileId ∈
      (attempt.result cfg workerId batch results).finalizedSuccessful.map getEntryId then
    { document with
      messaging := { document.messaging with publishedAt := some attempt.publishedAt } }
  else document

theorem result_outbox : (attempt.result cfg workerId batch results).outbox =
    attempt.outbox.map (attempt.fate cfg workerId batch results) :=
  finalizeBatch_outbox ..

theorem result_metadata : (attempt.result cfg workerId batch results).metadata =
    attempt.metadata.map (attempt.date cfg workerId batch results) := by
  by_cases none : (attempt.result cfg workerId batch results).finalizedSuccessful = []
  · have undated : attempt.date cfg workerId batch results = id := by
      funext document
      simp [date, none]
    rw [undated, List.map_id]
    exact if_pos none
  · refine (if_neg none).trans ?_
    simp only [bulkUpdatePublishedAtDate, updateMany, decide_eq_true_eq]
    rfl

variable {workerId batch results attempt}

/-- An entry named as successful in time is sent. -/
theorem fate_of_sent {snapshot entry : OutboxEntry}
    (inTime : InTime workerId (attempt.sentCalls batch results) snapshot entry) :
    ∃ now, attempt.fate cfg workerId batch results entry = finalizeSucceeded now entry := by
  obtain ⟨time, called, matched⟩ := inTime
  rcases settle_cases cfg workerId .succeeded []
    (attempt.sentCalls batch results) entry with ⟨call, _, _, sent⟩ | ⟨silent, _⟩
  · refine ⟨call.2, ?_⟩
    rw [fate, sent, settle_of_not_processing]
    · rfl
    · exact finalizeUpdate_status_ne_processing _ _ _ _ _
  · rw [silent _ called] at matched
    cases matched

/-- An entry that only a failure names in time is pending again or given up, with the error of
the first failure of its name. -/
theorem fate_of_failed {snapshot entry : OutboxEntry}
    (unsent : ∀ other, ¬ InTime workerId (attempt.sentCalls batch results) other entry)
    (inTime : InTime workerId (attempt.failedCalls batch results) snapshot entry) :
    ∃ now, attempt.fate cfg workerId batch results entry =
      buildClaimedFailurePipeline cfg.outboxMaxAttempts
        (some (buildEntryError snapshot results.failed)) now entry := by
  have passed : settle cfg workerId .succeeded [] (attempt.sentCalls batch results) entry =
      entry := by
    rcases settle_cases cfg workerId .succeeded []
      (attempt.sentCalls batch results) entry with ⟨call, called, matched, _⟩ | ⟨_, kept⟩
    · exact absurd ⟨call.2, called, matched⟩ (unsent call.1)
    · exact kept
  have sameId := inTime.id_eq
  obtain ⟨time, called, matched⟩ := inTime
  rcases settle_cases cfg workerId .failed results.failed
    (attempt.failedCalls batch results) entry with ⟨call, first, fires, failed⟩ | ⟨silent, _⟩
  · -- Every call that matches the entry was made for the one snapshot of its identifier.
    have same : call.1 = snapshot := by
      have left := (attempt.exists_failedCalls_iff batch results).mp ⟨call.2, first⟩
      have right := (attempt.exists_failedCalls_iff batch results).mp ⟨time, called⟩
      refine batch.distinct.eq_of_key left.1 right.1 ?_
      rw [← sameId]
      exact (List.mem_singleton.mp (finalizeFilter_iff.mp fires).1).symm
    refine ⟨call.2, ?_⟩
    rw [fate, passed, failed, same]
    rfl
  · rw [silent _ called] at matched
    cases matched

/-- An entry that nothing names in time stays as it is. -/
theorem fate_of_kept {entry : OutboxEntry}
    (unsent : ∀ other, ¬ InTime workerId (attempt.sentCalls batch results) other entry)
    (unfailed : ∀ other, ¬ InTime workerId (attempt.failedCalls batch results) other entry) :
    attempt.fate cfg workerId batch results entry = entry := by
  rcases settle_cases cfg workerId .succeeded []
    (attempt.sentCalls batch results) entry with ⟨call, called, matched, _⟩ | ⟨_, kept⟩
  · exact absurd ⟨call.2, called, matched⟩ (unsent call.1)
  · rcases settle_cases cfg workerId .failed results.failed
      (attempt.failedCalls batch results) entry with ⟨call, called, matched, _⟩ | ⟨_, same⟩
    · exact absurd ⟨call.2, called, matched⟩ (unfailed call.1)
    · rw [fate, kept, same]

end Fate

end TransactionAttempt

/-! ## What a commit leaves -/

/-- What is stored and listed when the transaction has committed with this attempt. -/
structure FinalisedBatch (cfg : Config) (workerId : WorkerId) (batch : ClaimedBatch)
    (results : PublishResults) (attempt : TransactionAttempt) (lists : FinalizationLists)
    (fate : OutboxEntry → OutboxEntry) (date : MetadataDocument → MetadataDocument) : Prop where
  stored_eq : attempt.stored cfg workerId batch results =
    (attempt.outbox.map fate, attempt.metadata.map date)
  called_sent : ∀ snapshot, (∃ time, (snapshot, time) ∈ attempt.sentCalls batch results) ↔
    snapshot ∈ batch.entries ∧ getEntryId snapshot ∈ results.successful
  called_failed : ∀ snapshot, (∃ time, (snapshot, time) ∈ attempt.failedCalls batch results) ↔
    snapshot ∈ batch.entries ∧ getEntryId snapshot ∈ results.failed.map PublishFailure.id
  sent : ∀ snapshot, ∀ entry ∈ attempt.outbox,
    InTime workerId (attempt.sentCalls batch results) snapshot entry →
      (∃ now, fate entry = { entry with
        status := .sent
        lastAttemptedAt := some now
        claimedAt := none
        claimedUntil := none
        claimedBy := none
        error := none }) ∧
        ∀ document ∈ attempt.metadata, snapshot.fileId.truthy = true →
          document.file.fileId = snapshot.fileId →
          date document = { document with
            messaging := { document.messaging with publishedAt := some attempt.publishedAt } }
  failed : ∀ snapshot, ∀ entry ∈ attempt.outbox,
    InTime workerId (attempt.failedCalls batch results) snapshot entry →
      (∀ other, ¬ InTime workerId (attempt.sentCalls batch results) other entry) →
      ∃ failure error now, FirstNamed results.failed snapshot failure ∧
        TellsFailure failure error ∧ fate entry = { entry with
          status := if cfg.outboxMaxAttempts ≤ entry.attempts then .permanentFailure else .pending
          lastAttemptedAt := some now
          claimedAt := none
          claimedUntil := none
          claimedBy := none
          error := some error }
  kept : ∀ entry ∈ attempt.outbox,
    (∀ other, ¬ InTime workerId (attempt.sentCalls batch results) other entry) →
      (∀ other, ¬ InTime workerId (attempt.failedCalls batch results) other entry) →
      fate entry = entry
  undated : ∀ document ∈ attempt.metadata,
    (∀ labelled ∈ lists.finalizedSuccessful,
      getEntryId labelled ≠ .file document.file.fileId) → date document = document
  listed_sent : ∀ entry ∈ attempt.outbox,
    entry.id ∈ lists.finalizedSuccessful.map OutboxEntry.id ↔
      ∃ snapshot, InTime workerId (attempt.sentCalls batch results) snapshot entry
  listed_changed : ∀ entry ∈ attempt.outbox,
    entry.id ∈ (lists.finalizedSuccessful ++ lists.finalizedFailed).map OutboxEntry.id ↔
      fate entry ≠ entry
  listed_claimed : ∀ labelled ∈ lists.finalizedSuccessful ++ lists.finalizedFailed,
    (∃ entry ∈ attempt.outbox, entry.id = labelled.id) ∧
      ∃ snapshot ∈ batch.entries, labelled = { snapshot with status := labelled.status }
  distinct : ((lists.finalizedSuccessful ++ lists.finalizedFailed).map OutboxEntry.id).Nodup

/-- Every failure that the transaction records takes the place of the entry's earlier error. -/
def TransactionAttempt.ReplacesErrors (attempt : TransactionAttempt) (workerId : WorkerId)
    (batch : ClaimedBatch) (results : PublishResults) : Prop :=
  ∀ snapshot, ∀ entry ∈ attempt.outbox,
    InTime workerId (attempt.failedCalls batch results) snapshot entry →
      (∀ other, ¬ InTime workerId (attempt.sentCalls batch results) other entry) →
      ∀ failure, FirstNamed results.failed snapshot failure → Replaces failure entry.error

namespace TransactionAttempt

variable {cfg : Config} {workerId : WorkerId} {batch : ClaimedBatch} {results : PublishResults}
  {attempt : TransactionAttempt}

/-- A sent entry is listed as successful, and no other is. -/
theorem listed_sent {fate : OutboxEntry → OutboxEntry}
    (spec : BatchSpec cfg workerId batch.entries attempt.outbox
      (attempt.result cfg workerId batch results) fate)
    (same : ∀ entry ∈ attempt.outbox, attempt.fate cfg workerId batch results entry = fate entry)
    {entry : OutboxEntry} (member : entry ∈ attempt.outbox) :
    entry.id ∈ (attempt.result cfg workerId batch results).finalizedSuccessful.map
        OutboxEntry.id ↔
      ∃ snapshot, InTime workerId (attempt.sentCalls batch results) snapshot entry := by
  constructor
  · intro listed
    by_contra unsent
    have unnamed : ∀ other, ¬ InTime workerId (attempt.sentCalls batch results) other entry :=
      fun other inTime => unsent ⟨other, inTime⟩
    rcases spec.each entry member with ⟨_, absent, _⟩ | ⟨outcome, change, isSent, _⟩
    · exact absent listed
    · have sent := change.sent_iff.mpr (isSent.mp listed)
      rw [← same entry member] at sent
      by_cases failed : ∃ other, InTime workerId (attempt.failedCalls batch results) other entry
      · obtain ⟨other, inTime⟩ := failed
        obtain ⟨now, retried⟩ := fate_of_failed cfg unnamed inTime
        rw [retried] at sent
        exact absurd ((finalizeUpdate_status_eq_sent cfg now .failed _ entry).mp sent) (by simp)
      · have kept := fate_of_kept cfg unnamed fun other inTime => failed ⟨other, inTime⟩
        rw [kept, change.processing] at sent
        cases sent
  · rintro ⟨snapshot, inTime⟩
    obtain ⟨now, sent⟩ := fate_of_sent cfg inTime
    rw [same entry member] at sent
    have held : entry.status = .processing := by
      obtain ⟨time, _, matched⟩ := inTime
      exact (finalizeFilter_iff.mp matched).2.1
    rcases spec.each entry member with ⟨kept, _⟩ | ⟨outcome, change, isSent, _⟩
    · rw [sent] at kept
      rw [← kept] at held
      cases held
    · exact isSent.mpr (change.sent_iff.mp (by rw [sent]; rfl))

/-- The lists name the entries that are not as they were. -/
theorem listed_changed {fate : OutboxEntry → OutboxEntry}
    (spec : BatchSpec cfg workerId batch.entries attempt.outbox
      (attempt.result cfg workerId batch results) fate)
    {entry : OutboxEntry} (member : entry ∈ attempt.outbox) :
    entry.id ∈ ((attempt.result cfg workerId batch results).finalizedSuccessful ++
        (attempt.result cfg workerId batch results).finalizedFailed).map OutboxEntry.id ↔
      fate entry ≠ entry := by
  rw [List.map_append, List.mem_append]
  rcases spec.each entry member with ⟨kept, notSent, notFailed⟩ |
    ⟨outcome, change, isSent, isFailed⟩
  · simp [kept, notSent, notFailed]
  · have changed : fate entry ≠ entry := fun kept =>
      change.not_processing (kept.symm ▸ change.processing)
    rw [isSent, isFailed]
    cases outcome <;> simp [changed]

/-- A sent entry is listed under the name of its snapshot. -/
theorem named_of_sent {fate : OutboxEntry → OutboxEntry}
    (spec : BatchSpec cfg workerId batch.entries attempt.outbox
      (attempt.result cfg workerId batch results) fate)
    {snapshot entry : OutboxEntry}
    (inTime : InTime workerId (attempt.sentCalls batch results) snapshot entry)
    (listed : entry.id ∈
      (attempt.result cfg workerId batch results).finalizedSuccessful.map OutboxEntry.id) :
    getEntryId snapshot ∈
      (attempt.result cfg workerId batch results).finalizedSuccessful.map getEntryId := by
  obtain ⟨labelled, isListed, sameId⟩ := List.mem_map.mp listed
  obtain ⟨_, claimed, inBatch, rfl⟩ := spec.successful labelled isListed
  -- The listed entry is the snapshot, under its new status.
  have isSnapshot : claimed = snapshot := by
    have claimedId : claimed.id = snapshot.id := sameId.trans inTime.id_eq
    obtain ⟨time, called, _⟩ := inTime
    have isClaimed := (attempt.exists_sentCalls_iff batch results).mp ⟨time, called⟩
    exact batch.distinct.eq_of_key inBatch isClaimed.1 claimedId
  refine List.mem_map.mpr ⟨_, isListed, ?_⟩
  rw [isSnapshot]
  rfl

/-- An entry that only a failure names in time has the error of the first failure of its name,
when that error takes the place of the earlier one. -/
theorem error_of_failed (replaces : attempt.ReplacesErrors workerId batch results)
    {snapshot entry : OutboxEntry} (member : entry ∈ attempt.outbox)
    (inTime : InTime workerId (attempt.failedCalls batch results) snapshot entry)
    (unsent : ∀ other, ¬ InTime workerId (attempt.sentCalls batch results) other entry) :
    ∃ failure, FirstNamed results.failed snapshot failure ∧
      TellsFailure failure (stageError (buildEntryError snapshot results.failed) entry.error) := by
  obtain ⟨time, called, _⟩ := id inTime
  obtain ⟨failure, first⟩ :=
    exists_firstNamed ((attempt.exists_failedCalls_iff batch results).mp ⟨time, called⟩).2
  refine ⟨failure, first, ?_⟩
  exact (tellsFailure_stageError_iff (tellsFailure_buildEntryError first) _).mpr
    (replaces snapshot entry member inTime unsent failure first)

/-- What a committed attempt leaves. -/
theorem finalisedBatch (committed : attempt.ends = .committed)
    (replaces : attempt.ReplacesErrors workerId batch results) :
    FinalisedBatch cfg workerId batch results attempt
      (attempt.result cfg workerId batch results).lists
      (attempt.fate cfg workerId batch results) (attempt.date cfg workerId batch results) := by
  obtain ⟨fate, spec⟩ := finalizeBatch_spec cfg workerId batch.entries results
    (attempt.times results) attempt.publishedAt attempt.metadata attempt.unique
  have same : ∀ entry ∈ attempt.outbox,
      attempt.fate cfg workerId batch results entry = fate entry := by
    have agree := attempt.result_outbox cfg workerId batch results
    exact List.map_inj_left.mp (agree.symm.trans spec.outbox_eq)
  constructor
  case stored_eq =>
    rw [stored, committed, ← result_outbox, ← result_metadata]
  case called_sent => exact fun _ => exists_sentCalls_iff ..
  case called_failed => exact fun _ => exists_failedCalls_iff ..
  case sent =>
    intro snapshot entry member inTime
    refine ⟨fate_of_sent cfg inTime, fun document _ truthy sameFile => if_pos ?_⟩
    rw [sameFile, ← getEntryId_of_truthy truthy]
    exact named_of_sent spec inTime ((listed_sent spec same member).mpr ⟨snapshot, inTime⟩)
  case failed =>
    intro snapshot entry member inTime unsent
    obtain ⟨failure, first, tells⟩ := error_of_failed replaces member inTime unsent
    obtain ⟨now, failed⟩ := fate_of_failed cfg unsent inTime
    exact ⟨failure, _, now, first, tells, failed⟩
  case kept => exact fun _ _ unsent unfailed => fate_of_kept cfg unsent unfailed
  case undated =>
    intro document _ unnamed
    refine if_neg fun named => ?_
    obtain ⟨labelled, isListed, sameName⟩ := List.mem_map.mp named
    exact unnamed labelled isListed sameName
  case listed_sent => exact fun _ member => listed_sent spec same member
  case listed_changed =>
    intro entry member
    rw [same entry member]
    exact listed_changed spec member
  case listed_claimed =>
    intro labelled member
    rcases List.mem_append.mp member with isSent | isFailed
    · obtain ⟨found, snapshot, inBatch, rfl⟩ := spec.successful labelled isSent
      exact ⟨found, snapshot, inBatch, rfl⟩
    · obtain ⟨found, snapshot, inBatch, rfl⟩ := spec.failed labelled isFailed
      exact ⟨found, snapshot, inBatch, rfl⟩
  case distinct => exact spec.distinct

/-- Where the entries have the errors of their failures, these took the place of earlier ones. -/
theorem replacesErrors_of_finalisedBatch (committed : attempt.ends = .committed)
    {lists : FinalizationLists} {fate : OutboxEntry → OutboxEntry}
    {date : MetadataDocument → MetadataDocument}
    (finalised : FinalisedBatch cfg workerId batch results attempt lists fate date) :
    attempt.ReplacesErrors workerId batch results := by
  intro snapshot entry member inTime unsent failure first
  obtain ⟨named, error, _, firstNamed, tells, failed⟩ :=
    finalised.failed snapshot entry member inTime unsent
  obtain rfl : failure = named := Option.some.inj (first.find?.symm.trans firstNamed.find?)
  -- What is stored determines the fate of every stored entry.
  have stored := finalised.stored_eq
  rw [TransactionAttempt.stored, committed, result_outbox] at stored
  have same := List.map_inj_left.mp (congrArg Prod.fst stored) entry member
  obtain ⟨_, recorded⟩ := fate_of_failed cfg unsent inTime
  rw [recorded, failed] at same
  have isError := Option.some.inj (congrArg OutboxEntry.error same)
  rw [← isError] at tells
  exact (tellsFailure_stageError_iff (tellsFailure_buildEntryError first) _).mp tells

/-- An attempt that does not commit leaves what was stored. -/
theorem stored_of_not_committed (cfg : Config) (workerId : WorkerId) (batch : ClaimedBatch)
    (results : PublishResults) (aborted : attempt.ends ≠ .committed) :
    attempt.stored cfg workerId batch results = (attempt.outbox, attempt.metadata) := by
  rw [stored]
  cases ends : attempt.ends with
  | threw => rfl
  | rolledBack => rfl
  | committed => exact absurd ends aborted

end TransactionAttempt

/-- After an attempt that does not commit, the callback runs again. -/
theorem withTransaction_cons_of_aborted (cfg : Config) (workerId : WorkerId)
    (batch : ClaimedBatch) (results : PublishResults) (lists : FinalizationLists)
    {first : TransactionAttempt} (aborted : first.ends ≠ .committed)
    (rest : List TransactionAttempt) :
    ∃ assigned, withTransaction cfg workerId batch results lists (first :: rest) =
      withTransaction cfg workerId batch results assigned rest := by
  rw [withTransaction]
  cases ends : first.ends with
  | threw => exact ⟨lists, rfl⟩
  | rolledBack => exact ⟨(first.result cfg workerId batch results).lists, rfl⟩
  | committed => exact absurd ends aborted

/-- The transaction ends with the first attempt that commits, and the lists are its own. -/
theorem withTransaction_cases (cfg : Config) (workerId : WorkerId) (batch : ClaimedBatch)
    (results : PublishResults) (lists : FinalizationLists) (attempts : List TransactionAttempt) :
    (∃ earlier attempt later, attempts = earlier ++ attempt :: later ∧
        (∀ other ∈ earlier, other.ends ≠ .committed) ∧ attempt.ends = .committed ∧
        withTransaction cfg workerId batch results lists attempts =
          .committed (attempt.result cfg workerId batch results).lists attempt) ∨
      ((∀ attempt ∈ attempts, attempt.ends ≠ .committed) ∧
        withTransaction cfg workerId batch results lists attempts = .threw) := by
  induction attempts generalizing lists with
  | nil => exact Or.inr ⟨by simp, rfl⟩
  | cons first rest ih =>
      by_cases ends : first.ends = .committed
      · refine Or.inl ⟨[], first, rest, rfl, by simp, ends, ?_⟩
        rw [withTransaction, ends]
      · -- The lists an aborted attempt leaves are overwritten by the one that commits.
        obtain ⟨assigned, again⟩ :=
          withTransaction_cons_of_aborted cfg workerId batch results lists ends rest
        rw [again]
        rcases ih assigned with ⟨earlier, attempt, later, sequence, aborted, committed, outcome⟩ |
          ⟨aborted, outcome⟩
        · exact Or.inl ⟨first :: earlier, attempt, later, by rw [sequence, List.cons_append],
            List.forall_mem_cons.mpr ⟨ends, aborted⟩, committed, outcome⟩
        · exact Or.inr ⟨List.forall_mem_cons.mpr ⟨ends, aborted⟩, outcome⟩

/-- The first attempt that commits is found by the way it ends. -/
theorem find?_committed {earlier later : List TransactionAttempt} {attempt : TransactionAttempt}
    (aborted : ∀ other ∈ earlier, other.ends ≠ .committed) (committed : attempt.ends = .committed) :
    ((earlier ++ attempt :: later).find? fun attempt => attempt.ends = .committed) =
      some attempt := by
  have passed : (earlier.find? fun attempt => attempt.ends = .committed) = none := by
    refine List.find?_eq_none.mpr fun other member => ?_
    simpa using aborted other member
  rw [List.find?_append, passed]
  simp [committed]

/-- A batch is finalised as the answer says by the one attempt that commits; when none does,
nothing is changed. -/
structure FinalisedAsAnswered (cfg : Config) (workerId : WorkerId) (batch : ClaimedBatch)
    (results : PublishResults) (attempts : List TransactionAttempt) : Prop where
  committed : ∀ lists attempt,
    withTransaction cfg workerId batch results .empty attempts = .committed lists attempt →
    ∃ earlier later, attempts = earlier ++ attempt :: later ∧
      (∀ other ∈ earlier,
        other.stored cfg workerId batch results = (other.outbox, other.metadata)) ∧
      ∃ fate date, FinalisedBatch cfg workerId batch results attempt lists fate date
  threw : withTransaction cfg workerId batch results .empty attempts = .threw →
    ∀ attempt ∈ attempts,
      attempt.stored cfg workerId batch results = (attempt.outbox, attempt.metadata)

/-- Whatever the answer names and whichever claims were lost, the batch is finalised as answered
exactly when every error that the committed attempt records takes the place of the earlier one. -/
theorem batch_finalised_as_answered_iff (cfg : Config) (workerId : WorkerId)
    (batch : ClaimedBatch) (results : PublishResults) (attempts : List TransactionAttempt) :
    FinalisedAsAnswered cfg workerId batch results attempts ↔
      ∀ attempt, (attempts.find? fun attempt => attempt.ends = .committed) = some attempt →
        attempt.ReplacesErrors workerId batch results := by
  rcases withTransaction_cases cfg workerId batch results .empty attempts with
    ⟨earlier, last, later, sequence, aborted, committed, outcome⟩ | ⟨aborted, outcome⟩
  · have isFirst : (attempts.find? fun attempt => attempt.ends = .committed) = some last := by
      rw [sequence, find?_committed aborted committed]
    constructor
    · intro finalised attempt found
      obtain rfl : last = attempt := Option.some.inj (isFirst.symm.trans found)
      obtain ⟨_, _, _, _, _, _, spec⟩ := finalised.committed _ _ outcome
      exact last.replacesErrors_of_finalisedBatch committed spec
    · intro replaces
      constructor
      · intro lists attempt commits
        obtain ⟨rfl, rfl⟩ := TransactionOutcome.committed.inj (outcome.symm.trans commits)
        refine ⟨earlier, later, sequence, fun other member => ?_, _, _,
          last.finalisedBatch committed (replaces last isFirst)⟩
        exact other.stored_of_not_committed cfg workerId batch results (aborted other member)
      · intro threw
        rw [outcome] at threw
        cases threw
  · constructor
    · intro _ attempt found
      have isCommitted := List.find?_some found
      exact absurd (of_decide_eq_true isCommitted)
        (aborted attempt (List.mem_of_find?_eq_some found))
    · intro _
      constructor
      · intro lists attempt commits
        rw [outcome] at commits
        cases commits
      · intro _ attempt member
        exact attempt.stored_of_not_committed cfg workerId batch results (aborted attempt member)

/-! ### Two claimed files -/

namespace Sample

def held (value : Nat) (fileId : String) : OutboxEntry :=
  claimUpdate config "worker" 0 (.created 0 (objectId (100 + value)) (document value fileId))

def claimedBatch : ClaimedBatch where
  entries := [held 1 fileA, held 2 fileB]
  distinct := by decide
  named := by decide

/-- Both entries are named twice, one of them in both lists, and a third name is unknown. -/
def contradictory : PublishResults where
  successful := [.file (.str fileA), .message (objectId 9), .file (.str fileA)]
  failed :=
    [ { id := .file (.str fileA), code := none, message := some "refused" },
      { id := .file (.str fileB), code := some "Throttled", message := none },
      { id := .file (.str fileB), code := none, message := some "again" } ]

def finalisation (batch : ClaimedBatch) (ends : AttemptEnd) : TransactionAttempt where
  outbox := batch.entries
  metadata := [document 1 fileA, document 2 fileB]
  unique := batch.distinct
  clock index := index
  publishedAt := 6
  ends

end Sample

/-- The first attempt is rolled back; the second sends one entry and retries the other. -/
theorem batch_finalised_as_answered_iff_sample :
    FinalisedAsAnswered Sample.config "worker" Sample.claimedBatch Sample.contradictory
      [Sample.finalisation Sample.claimedBatch .rolledBack,
        Sample.finalisation Sample.claimedBatch .committed] := by
  refine (batch_finalised_as_answered_iff ..).mpr fun attempt found => ?_
  obtain rfl : Sample.finalisation Sample.claimedBatch .committed = attempt :=
    Option.some.inj found
  intro _ entry member _ _ failure first
  have noError : ∀ entry ∈ Sample.claimedBatch.entries,
      entry.error.bind PublishError.code = none := by decide
  have literal : ∀ failure ∈ Sample.contradictory.failed,
      (failure.message.any isFieldPath || failure.code.any isFieldPath) = false := by decide
  have texts := literal failure first.mem
  refine ⟨fun text isText => ?_, fun text isText => ?_, fun _ => noError entry member⟩
  · simpa [isText] using (Bool.or_eq_false_iff.mp texts).1
  · simpa [isText] using (Bool.or_eq_false_iff.mp texts).2

namespace Sample

/-- An entry claimed again after SNS refused it with a code. -/
def heldAgain : OutboxEntry :=
  { held 1 fileA with
    error := some
      { type := "outbox_publish_failure"
        code := some "InternalError"
        message := some "internal error" } }

def retriedBatch : ClaimedBatch where
  entries := [heldAgain, held 2 fileB]
  distinct := by decide
  named := by decide

/-- The entry fails again, this time without a code. -/
def uncoded : PublishResults where
  successful := [.file (.str fileB)]
  failed := [{ id := .file (.str fileA), code := none, message := some "timed out" }]

/-- The stored error keeps the code of the earlier failure. -/
theorem stale_code_kept :
    ¬ FinalisedAsAnswered config "worker" retriedBatch uncoded
      [finalisation retriedBatch .committed] := by
  intro finalised
  obtain ⟨_, _, _, _, _, _, spec⟩ := finalised.committed _ _ rfl
  have replaces :=
    (finalisation retriedBatch .committed).replacesErrors_of_finalisedBatch rfl spec
  have inTime : InTime "worker" ((finalisation retriedBatch .committed).failedCalls retriedBatch
      uncoded) heldAgain heldAgain := ⟨1, by decide, by decide⟩
  have unsent : ∀ other, ¬ InTime "worker"
      ((finalisation retriedBatch .committed).sentCalls retriedBatch uncoded) other heldAgain := by
    intro other sent
    have sameId := sent.id_eq
    obtain ⟨time, called, _⟩ := sent
    obtain ⟨claimed, isSent⟩ :=
      ((finalisation retriedBatch .committed).exists_sentCalls_iff retriedBatch uncoded).mp
        ⟨time, called⟩
    have otherwise : ∀ entry ∈ retriedBatch.entries,
        getEntryId entry ∈ uncoded.successful → heldAgain.id ≠ entry.id := by decide
    exact otherwise other claimed isSent sameId
  have uncodedFailure : ¬ HasText none := by
    rintro ⟨_, isText, _⟩
    cases isText
  have stale := (replaces heldAgain heldAgain (List.mem_cons_self ..) inTime unsent _
    ⟨[], [], rfl, rfl, by simp⟩).stale uncodedFailure
  cases stale

end Sample

end ObjectProcessor
