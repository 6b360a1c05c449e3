import ObjectProcessor.Outbox.Entry

/-!
# Publishing a batch and finalising it

The answer to a publish request names messages, and every named message is
mapped back to the claimed entry it was built from.  One transaction then
finalises the named entries one by one, the successful ones first, and dates the
metadata documents of those that were sent.
-/

namespace ObjectProcessor

open Library

/-- What a publish result is matched by: the file identifier, or the message
identifier of an entry without one. -/
inductive EntryId where
  | file (fileId : Json)
  | message (messageId : ObjectId)
  deriving DecidableEq

def getEntryId (entry : OutboxEntry) : EntryId :=
  if entry.fileId.truthy then .file entry.fileId else .message entry.messageId

theorem getEntryId_of_truthy {entry : OutboxEntry} (truthy : entry.fileId.truthy = true) :
    getEntryId entry = .file entry.fileId := if_pos truthy

theorem fileId_of_getEntryId {entry : OutboxEntry} {fileId : Json}
    (named : getEntryId entry = .file fileId) : entry.fileId = fileId := by
  rw [getEntryId] at named
  split at named
  · exact EntryId.file.inj named
  · cases named

/-- An item of `Failed`. -/
structure PublishFailure where
  id : EntryId
  code : Option String
  message : Option String
  deriving DecidableEq

structure PublishResults where
  successful : List EntryId
  failed : List PublishFailure
  deriving DecidableEq

/-- How a publish request ends. -/
inductive PublishAnswer where
  | answered (results : PublishResults)
  | threw (code message : Option String)
  deriving DecidableEq

/-- `publishDocumentUploadMessageBatch`: an error fails every entry of the batch. -/
def publishDocumentUploadMessageBatch (batch : List OutboxEntry) : PublishAnswer → PublishResults
  | .answered results => results
  | .threw code message =>
      { successful := []
        failed := batch.map fun entry => { id := getEntryId entry, code, message } }

/-- The first text that is present and not empty. -/
def firstText (texts : List (Option String)) : Option String :=
  (texts.filterMap id).find? fun text => text ≠ ""

/-- `buildEntryError`. -/
def buildEntryError (entry : OutboxEntry) (failedResults : List PublishFailure) : PublishError :=
  let failure := failedResults.find? fun result => result.id = getEntryId entry
  let code := failure.bind PublishFailure.code
  { type := "outbox_publish_failure"
    code := firstText [code]
    message := some
      ((firstText [failure.bind PublishFailure.message, code]).getD "failed_to_publish") }

/-- The failure is the first item of `Failed` that names the entry. -/
def FirstNamed (failedResults : List PublishFailure) (entry : OutboxEntry)
    (failure : PublishFailure) : Prop :=
  ∃ earlier later, failedResults = earlier ++ failure :: later ∧ failure.id = getEntryId entry ∧
    ∀ other ∈ earlier, other.id ≠ getEntryId entry

def HasText (text : Option String) : Prop :=
  ∃ value, text = some value ∧ value ≠ ""

/-- The error record of a failure: its code if it has one, and for the message the first of
its message, its code and a fixed text. -/
structure TellsFailure (failure : PublishFailure) (error : PublishError) : Prop where
  type_eq : error.type = "outbox_publish_failure"
  code_iff : ∀ code, error.code = some code ↔ failure.code = some code ∧ code ≠ ""
  message : ∀ message, failure.message = some message → message ≠ "" →
    error.message = some message
  code_as_message : ¬ HasText failure.message → ∀ code, failure.code = some code → code ≠ "" →
    error.message = some code
  no_message : ¬ HasText failure.message → ¬ HasText failure.code →
    error.message = some "failed_to_publish"

theorem firstText_of_text {text : String} (present : text ≠ "") (rest : List (Option String)) :
    firstText (some text :: rest) = some text := by
  simp [firstText, present]

theorem firstText_of_without {first : Option String} (without : ¬ HasText first)
    (rest : List (Option String)) : firstText (first :: rest) = firstText rest := by
  cases first with
  | none => rfl
  | some text =>
      have empty : text = "" := by
        by_contra present
        exact without ⟨text, rfl, present⟩
      simp [firstText, empty]

theorem FirstNamed.find? {failedResults : List PublishFailure} {entry : OutboxEntry}
    {failure : PublishFailure} (first : FirstNamed failedResults entry failure) :
    (failedResults.find? fun result => result.id = getEntryId entry) = some failure := by
  obtain ⟨earlier, later, rfl, named, others⟩ := first
  have passed : (earlier.find? fun result => result.id = getEntryId entry) = none := by
    refine List.find?_eq_none.mpr fun other member => ?_
    simpa using others other member
  rw [List.find?_append, passed]
  simp [named]

theorem FirstNamed.mem {failedResults : List PublishFailure} {entry : OutboxEntry}
    {failure : PublishFailure} (first : FirstNamed failedResults entry failure) :
    failure ∈ failedResults :=
  List.mem_of_find?_eq_some first.find?

theorem exists_firstNamed {failedResults : List PublishFailure} {entry : OutboxEntry}
    (named : getEntryId entry ∈ failedResults.map PublishFailure.id) :
    ∃ failure, FirstNamed failedResults entry failure := by
  obtain ⟨item, listed, sameId⟩ := List.mem_map.mp named
  have isNamed : (failedResults.find? fun result => result.id = getEntryId entry).isSome :=
    List.find?_isSome.mpr ⟨item, listed, decide_eq_true sameId⟩
  obtain ⟨failure, found⟩ := Option.isSome_iff_exists.mp isNamed
  obtain ⟨matched, earlier, later, sequence, others⟩ := List.find?_eq_some_iff_append.mp found
  refine ⟨failure, earlier, later, sequence, of_decide_eq_true matched, fun other member => ?_⟩
  simpa using others other member

/-- The error is that of the first failure of the entry's name. -/
theorem tellsFailure_buildEntryError {failedResults : List PublishFailure} {entry : OutboxEntry}
    {failure : PublishFailure} (first : FirstNamed failedResults entry failure) :
    TellsFailure failure (buildEntryError entry failedResults) := by
  have found := first.find?
  constructor
  case type_eq => rfl
  case code_iff =>
    intro code
    by_cases has : HasText failure.code
    · obtain ⟨text, isText, present⟩ := has
      simp only [buildEntryError, found, Option.bind_some, isText, firstText_of_text present,
        Option.some.injEq]
      exact ⟨fun same => ⟨same, same ▸ present⟩, And.left⟩
    · simp only [buildEntryError, found, Option.bind_some, firstText_of_without has]
      exact ⟨nofun, fun ⟨isCode, present⟩ => absurd ⟨code, isCode, present⟩ has⟩
  case message =>
    intro message isMessage present
    simp only [buildEntryError, found, Option.bind_some, isMessage, firstText_of_text present,
      Option.getD_some]
  case code_as_message =>
    intro without code isCode present
    simp only [buildEntryError, found, Option.bind_some, firstText_of_without without, isCode,
      firstText_of_text present, Option.getD_some]
  case no_message =>
    intro withoutMessage withoutCode
    simp only [buildEntryError, found, Option.bind_some, firstText_of_without withoutMessage,
      firstText_of_without withoutCode]
    rfl

/-! ### An error that takes the place of the earlier one -/

/-- No text of the failure is a path, and the error it replaces has a code only if the failure
has one. -/
structure Replaces (failure : PublishFailure) (stored : Option PublishError) : Prop where
  message : ∀ text, failure.message = some text → isFieldPath text = false
  code : ∀ text, failure.code = some text → isFieldPath text = false
  stale : ¬ HasText failure.code → stored.bind PublishError.code = none

theorem TellsFailure.eq {failure : PublishFailure} {left right : PublishError}
    (tellsLeft : TellsFailure failure left) (tellsRight : TellsFailure failure right) :
    left = right := by
  have type := tellsLeft.type_eq.trans tellsRight.type_eq.symm
  have code : left.code = right.code :=
    Option.ext fun text => (tellsLeft.code_iff text).trans (tellsRight.code_iff text).symm
  refine PublishError.ext type code ?_
  by_cases hasMessage : HasText failure.message
  · obtain ⟨text, isText, present⟩ := hasMessage
    rw [tellsLeft.message text isText present, tellsRight.message text isText present]
  · by_cases hasCode : HasText failure.code
    · obtain ⟨text, isText, present⟩ := hasCode
      rw [tellsLeft.code_as_message hasMessage text isText present,
        tellsRight.code_as_message hasMessage text isText present]
    · rw [tellsLeft.no_message hasMessage hasCode, tellsRight.no_message hasMessage hasCode]

theorem ne_empty_of_isFieldPath {text : String} (path : isFieldPath text = true) : text ≠ "" := by
  rintro rfl
  simp [isFieldPath] at path

/-- The message of the record is one of the texts of the failure, or the fixed one. -/
theorem TellsFailure.message_cases {failure : PublishFailure} {error : PublishError}
    (tells : TellsFailure failure error) :
    ∃ message, error.message = some message ∧ (failure.message = some message ∨
      failure.code = some message ∨ message = "failed_to_publish") := by
  by_cases hasMessage : HasText failure.message
  · obtain ⟨text, isText, present⟩ := hasMessage
    exact ⟨text, tells.message text isText present, Or.inl isText⟩
  · by_cases hasCode : HasText failure.code
    · obtain ⟨text, isText, present⟩ := hasCode
      exact ⟨text, tells.code_as_message hasMessage text isText present, Or.inr (Or.inl isText)⟩
    · exact ⟨_, tells.no_message hasMessage hasCode, Or.inr (Or.inr rfl)⟩

/-- The stored error is that of the failure exactly when it takes the place of the earlier
one. -/
theorem tellsFailure_stageError_iff {failure : PublishFailure} {error : PublishError}
    (tells : TellsFailure failure error) (stored : Option PublishError) :
    TellsFailure failure (stageError error stored) ↔ Replaces failure stored := by
  have same : TellsFailure failure (stageError error stored) ↔ stageError error stored = error :=
    ⟨fun stays => stays.eq tells, fun stays => by rwa [stays]⟩
  obtain ⟨message, isMessage, source⟩ := tells.message_cases
  rw [same, stageError_eq_iff, stageText_eq_iff, stageText_eq_iff]
  constructor
  · rintro ⟨⟨codeLiteral, stale⟩, messageLiteral, _⟩
    have code : ∀ text, failure.code = some text → isFieldPath text = false := by
      intro text isText
      refine Bool.eq_false_iff.mpr fun path => ?_
      have told := (tells.code_iff text).mpr ⟨isText, ne_empty_of_isFieldPath path⟩
      exact absurd path (by simp [codeLiteral text told])
    refine ⟨fun text isText => ?_, code, fun without => stale ?_⟩
    · refine Bool.eq_false_iff.mpr fun path => ?_
      have told := tells.message text isText (ne_empty_of_isFieldPath path)
      exact absurd path (by simp [messageLiteral text told])
    · refine Option.eq_none_iff_forall_ne_some.mpr fun text told => without ?_
      exact ⟨text, (tells.code_iff text).mp told⟩
  · intro replaces
    have code : ∀ text, error.code = some text → isFieldPath text = false :=
      fun text told => replaces.code text ((tells.code_iff text).mp told).1
    refine ⟨⟨code, fun untold => ?_⟩, fun text told => ?_, fun untold => ?_⟩
    · refine replaces.stale fun ⟨text, isText, present⟩ => ?_
      rw [(tells.code_iff text).mpr ⟨isText, present⟩] at untold
      cases untold
    · obtain rfl : message = text := Option.some.inj (isMessage.symm.trans told)
      rcases source with isText | isText | rfl
      · exact replaces.message _ isText
      · exact replaces.code _ isText
      · decide
    · rw [isMessage] at untold
      cases untold

/-- The entries of the batch named by the results.  The map from identifiers to
entries keeps the last entry of each. -/
def mapPublishResultsToEntries (batch : List OutboxEntry) (results : List EntryId) :
    List OutboxEntry :=
  results.filterMap fun result => batch.reverse.find? fun entry => getEntryId entry = result

/-- Mirrors the status the failure pipeline computes in the database. -/
def resolveFailedStatus (attempts maxAttempts : Nat) : OutboxStatus :=
  if maxAttempts ≤ attempts then .permanentFailure else .pending

structure Finalization where
  outbox : List OutboxEntry
  finalized : List OutboxEntry
  rejected : List OutboxEntry

/-- The error a call of `finalizeEntries` records. -/
def callError (outcome : DeliveryOutcome) (entry : OutboxEntry)
    (failedResults : List PublishFailure) : Option PublishError :=
  match outcome with
  | .succeeded => none
  | .failed => some (buildEntryError entry failedResults)

/-- The status a finalised entry is labelled with. -/
def finalizedStatus (cfg : Config) (outcome : DeliveryOutcome) (entry : OutboxEntry) :
    OutboxStatus :=
  match outcome with
  | .succeeded => .sent
  | .failed => resolveFailedStatus entry.attempts cfg.outboxMaxAttempts

/-- `finalizeEntries`: each entry is finalised by a call of its own, which reads
the clock first. -/
def finalizeEntries (cfg : Config) (workerId : WorkerId) (outcome : DeliveryOutcome)
    (failedResults : List PublishFailure) :
    List (OutboxEntry × Time) → List OutboxEntry → Finalization
  | [], outbox => { outbox, finalized := [], rejected := [] }
  | (entry, now) :: rest, outbox =>
      let result := finalizeClaimedOutboxEntries cfg outbox [entry.id] workerId outcome
        (callError outcome entry failedResults) now
      let others := finalizeEntries cfg workerId outcome failedResults rest result.2
      if result.1 = 1 then
        let labelled := { entry with status := finalizedStatus cfg outcome entry }
        { others with finalized := labelled :: others.finalized }
      else
        { others with rejected := entry :: others.rejected }

/-- `bulkUpdatePublishedAtDate`. -/
def bulkUpdatePublishedAtDate (fileIds : List EntryId) (now : Time)
    (metadata : List MetadataDocument) : List MetadataDocument :=
  updateMany (fun document => decide (EntryId.file document.file.fileId ∈ fileIds))
    (fun document =>
      { document with messaging := { document.messaging with publishedAt := some now } })
    metadata

structure BatchFinalization where
  outbox : List OutboxEntry
  metadata : List MetadataDocument
  finalizedSuccessful : List OutboxEntry
  finalizedFailed : List OutboxEntry
  rejected : List OutboxEntry

/-- The finalisation transaction of `publishPendingMessages`.  The calls read the
clock in turn; `publishedAt` is read last. -/
def finalizeBatch (cfg : Config) (workerId : WorkerId) (batch : List OutboxEntry)
    (results : PublishResults) (times : List Time) (publishedAt : Time)
    (outbox : List OutboxEntry) (metadata : List MetadataDocument) : BatchFinalization :=
  let successfulEntries := mapPublishResultsToEntries batch results.successful
  let failedEntries := mapPublishResultsToEntries batch (results.failed.map PublishFailure.id)
  let successfulResult :=
    finalizeEntries cfg workerId .succeeded [] (successfulEntries.zip times) outbox
  let failedResult :=
    finalizeEntries cfg workerId .failed results.failed
      (failedEntries.zip (times.drop successfulEntries.length)) successfulResult.outbox
  { outbox := failedResult.outbox
    metadata :=
      if successfulResult.finalized = [] then metadata
      else
        bulkUpdatePublishedAtDate (successfulResult.finalized.map getEntryId) publishedAt metadata
    finalizedSuccessful := successfulResult.finalized
    finalizedFailed := failedResult.finalized
    rejected := successfulResult.rejected ++ failedResult.rejected }

/-- When the one message named was accepted, one update is made. -/
theorem finalizeBatch_of_picked {cfg : Config} {workerId : WorkerId} {batch : List OutboxEntry}
    {named : EntryId} {entry : OutboxEntry} (now publishedAt : Time)
    (picked : mapPublishResultsToEntries batch [named] = [entry]) (outbox : List OutboxEntry)
    (metadata : List MetadataDocument) :
    (finalizeBatch cfg workerId batch { successful := [named], failed := [] } [now] publishedAt
      outbox metadata).outbox =
        updateMany (finalizeFilter [entry.id] workerId now)
          (finalizeUpdate cfg .succeeded none now) outbox := by
  have nothing : mapPublishResultsToEntries batch [] = [] := rfl
  simp only [finalizeBatch, picked, List.map_nil, nothing, List.zip_cons_cons, List.zip_nil_left,
    finalizeEntries, finalizeClaimedOutboxEntries, callError]
  by_cases one : matchedCount (finalizeFilter [entry.id] workerId now) outbox = 1
  · simp only [one, ↓reduceIte]
  · simp only [one, ↓reduceIte]

/-! ## What finalisation does to an entry -/

/-- The entry was under an unexpired claim of the worker, and the claim was
finalised with the given outcome.  A failure is recorded with its error. -/
def Finalised (cfg : Config) (workerId : WorkerId) (outcome : DeliveryOutcome)
    (before after : OutboxEntry) : Prop :=
  ∃ error now, (outcome = .failed → error.isSome = true) ∧
    finalizeFilter [before.id] workerId now before = true ∧
    after = finalizeUpdate cfg outcome error now before

namespace Finalised

variable {cfg : Config} {workerId : WorkerId} {outcome : DeliveryOutcome}
  {before after : OutboxEntry}

theorem processing (change : Finalised cfg workerId outcome before after) :
    before.status = .processing := by
  obtain ⟨error, now, _, matched, _⟩ := change
  exact (finalizeFilter_iff.mp matched).2.1

theorem owned (change : Finalised cfg workerId outcome before after) :
    before.claimedBy = some workerId := by
  obtain ⟨error, now, _, matched, _⟩ := change
  exact (finalizeFilter_iff.mp matched).2.2.1

theorem id_eq (change : Finalised cfg workerId outcome before after) : after.id = before.id := by
  obtain ⟨error, now, _, _, rfl⟩ := change
  exact finalizeUpdate_id ..

theorem messageId_eq (change : Finalised cfg workerId outcome before after) :
    after.messageId = before.messageId := by
  obtain ⟨error, now, _, _, rfl⟩ := change
  exact finalizeUpdate_messageId ..

theorem payload_eq (change : Finalised cfg workerId outcome before after) :
    after.payload = before.payload := by
  obtain ⟨error, now, _, _, rfl⟩ := change
  exact finalizeUpdate_payload ..

theorem not_processing (change : Finalised cfg workerId outcome before after) :
    after.status ≠ .processing := by
  obtain ⟨error, now, _, _, rfl⟩ := change
  exact finalizeUpdate_status_ne_processing _ _ _ _ _

theorem sent_iff (change : Finalised cfg workerId outcome before after) :
    after.status = .sent ↔ outcome = .succeeded := by
  obtain ⟨error, now, _, _, rfl⟩ := change
  exact finalizeUpdate_status_eq_sent ..

/-- An entry is given up for a failure of its last attempt. -/
theorem givenUp (change : Finalised cfg workerId outcome before after)
    (givenUp : after.status = .permanentFailure) :
    outcome = .failed ∧ cfg.outboxMaxAttempts ≤ before.attempts ∧
      after.attempts = before.attempts := by
  obtain ⟨error, now, _, _, rfl⟩ := change
  refine ⟨?_, ?_, finalizeUpdate_attempts ..⟩
  · cases outcome with
    | succeeded => cases givenUp
    | failed => rfl
  · by_contra remains
    cases outcome with
    | succeeded => cases givenUp
    | failed => simp [finalizeUpdate, buildClaimedFailurePipeline, remains] at givenUp

end Finalised

/-- The worker's list of finalised entries names exactly the entries it changed. -/
structure FinalizeSpec (cfg : Config) (workerId : WorkerId) (outcome : DeliveryOutcome)
    (calls : List OutboxEntry) (outbox : List OutboxEntry) (result : Finalization)
    (fate : OutboxEntry → OutboxEntry) : Prop where
  outbox_eq : result.outbox = outbox.map fate
  each : ∀ entry ∈ outbox,
    (fate entry = entry ∧ entry.id ∉ result.finalized.map OutboxEntry.id) ∨
      (Finalised cfg workerId outcome entry (fate entry) ∧
        entry.id ∈ result.finalized.map OutboxEntry.id)
  named : ∀ labelled ∈ result.finalized, (∃ entry ∈ outbox, entry.id = labelled.id) ∧
    ∃ entry ∈ calls, labelled = { entry with status := finalizedStatus cfg outcome entry }
  distinct : UniqueBy OutboxEntry.id result.finalized

namespace FinalizeSpec

variable {cfg : Config} {workerId : WorkerId} {outcome : DeliveryOutcome}
  {outbox : List OutboxEntry} {claimed : OutboxEntry} {calls : List OutboxEntry}
  {filter : OutboxEntry → Bool} {update : OutboxEntry → OutboxEntry}
  {others : Finalization} {fate : OutboxEntry → OutboxEntry}

/-- What happens to one entry under a call and the calls after it. -/
theorem after_call
    (fires : ∀ entry, filter entry = true → Finalised cfg workerId outcome entry (update entry))
    (spec : FinalizeSpec cfg workerId outcome calls (updateMany filter update outbox) others fate)
    {entry : OutboxEntry} (member : entry ∈ outbox) :
    (filter entry = true ∧ fate (update entry) = update entry ∧
        entry.id ∉ others.finalized.map OutboxEntry.id) ∨
      (filter entry = false ∧
        ((fate entry = entry ∧ entry.id ∉ others.finalized.map OutboxEntry.id) ∨
          (Finalised cfg workerId outcome entry (fate entry) ∧
            entry.id ∈ others.finalized.map OutboxEntry.id))) := by
  cases matched : filter entry with
  | false => exact Or.inr ⟨rfl, spec.each entry (mem_updateMany_of_unmatched member matched)⟩
  | true =>
      refine Or.inl ⟨rfl, ?_⟩
      rcases spec.each _ (mem_updateMany_of_matched member matched) with kept | changed
      · exact ⟨kept.1, (fires entry matched).id_eq ▸ kept.2⟩
      · exact absurd changed.1.processing (fires entry matched).not_processing

/-- A call that matched an entry, followed by calls that meet the specification. -/
theorem cons_matched (unique : UniqueBy OutboxEntry.id outbox)
    (fires : ∀ entry, filter entry = true → Finalised cfg workerId outcome entry (update entry))
    (pinned : ∀ entry, filter entry = true → entry.id = claimed.id)
    (spec : FinalizeSpec cfg workerId outcome calls (updateMany filter update outbox) others fate)
    {target : OutboxEntry} (targetMember : target ∈ outbox) (targetMatched : filter target = true) :
    FinalizeSpec cfg workerId outcome (claimed :: calls) outbox
      { others with
        finalized := { claimed with status := finalizedStatus cfg outcome claimed } ::
          others.finalized }
      (fun entry => fate (if filter entry then update entry else entry)) where
  outbox_eq := by
    rw [spec.outbox_eq, updateMany, List.map_map]
    rfl
  each := by
    intro entry member
    rcases spec.after_call fires member with ⟨matched, kept, _⟩ | ⟨unmatched, kept | changed⟩
    · refine Or.inr ⟨?_, ?_⟩
      · simpa [matched, kept] using fires entry matched
      · simp [pinned entry matched]
    · refine Or.inl ⟨by simpa [unmatched] using kept.1, ?_⟩
      -- An unmatched entry is not the one the call named: identifiers are unique.
      have other : entry.id ≠ claimed.id := by
        intro same
        have equal : entry = target :=
          unique.eq_of_key member targetMember (same.trans (pinned target targetMatched).symm)
        rw [equal, targetMatched] at unmatched
        cases unmatched
      simpa [other] using kept.2
    · refine Or.inr ⟨by simpa [unmatched] using changed.1, ?_⟩
      exact List.mem_cons_of_mem _ changed.2
  named := by
    intro labelled member
    rcases List.mem_cons.mp member with rfl | member
    · exact ⟨⟨target, targetMember, pinned target targetMatched⟩,
        claimed, List.mem_cons_self .., rfl⟩
    · obtain ⟨⟨entry, found, same⟩, call, called, label⟩ := spec.named labelled member
      obtain ⟨before, beforeMember, rfl⟩ := mem_updateMany.mp found
      refine ⟨⟨before, beforeMember, ?_⟩, call, List.mem_cons_of_mem _ called, label⟩
      cases matched : filter before with
      | false => simpa [matched] using same
      | true => simpa [matched, (fires before matched).id_eq] using same
  distinct := by
    refine List.nodup_cons.mpr ⟨?_, spec.distinct⟩
    rcases spec.after_call fires targetMember with ⟨_, _, absent⟩ | ⟨unmatched, _⟩
    · exact pinned target targetMatched ▸ absent
    · rw [targetMatched] at unmatched
      cases unmatched

/-- A call that matched nothing leaves the outbox to the calls after it. -/
theorem cons_unmatched (unmatched : ∀ entry ∈ outbox, filter entry = false)
    (spec : FinalizeSpec cfg workerId outcome calls (updateMany filter update outbox) others fate) :
    FinalizeSpec cfg workerId outcome (claimed :: calls) outbox
      { others with rejected := claimed :: others.rejected } fate := by
  rw [updateMany_of_unmatched unmatched] at spec
  refine ⟨spec.outbox_eq, spec.each, ?_, spec.distinct⟩
  intro labelled member
  obtain ⟨found, call, called, label⟩ := spec.named labelled member
  exact ⟨found, call, List.mem_cons_of_mem _ called, label⟩

end FinalizeSpec

/-- `finalizeEntries` changes the entries it reports as finalised, whose claims
the worker still held, and no others. -/
theorem finalizeEntries_spec (cfg : Config) (workerId : WorkerId) (outcome : DeliveryOutcome)
    (failedResults : List PublishFailure) (calls : List (OutboxEntry × Time))
    {outbox : List OutboxEntry} (unique : UniqueBy OutboxEntry.id outbox) :
    ∃ fate, FinalizeSpec cfg workerId outcome (calls.map Prod.fst) outbox
      (finalizeEntries cfg workerId outcome failedResults calls outbox) fate := by
  induction calls generalizing outbox with
  | nil =>
      refine ⟨id, by simp [finalizeEntries], ?_, by simp [finalizeEntries], List.nodup_nil⟩
      intro entry _
      exact Or.inl ⟨rfl, by simp [finalizeEntries]⟩
  | cons call rest ih =>
      obtain ⟨claimed, now⟩ := call
      have uniqueAfter : UniqueBy OutboxEntry.id
          (updateMany (finalizeFilter [claimed.id] workerId now)
            (finalizeUpdate cfg outcome (callError outcome claimed failedResults) now) outbox) :=
        unique.updateMany fun _ => finalizeUpdate_id ..
      have pinned : ∀ entry, finalizeFilter [claimed.id] workerId now entry = true →
          entry.id = claimed.id := fun entry matched =>
        List.mem_singleton.mp (finalizeFilter_iff.mp matched).1
      obtain ⟨fate, spec⟩ := ih uniqueAfter
      by_cases matched : matchedCount (finalizeFilter [claimed.id] workerId now) outbox = 1
      · obtain ⟨target, targetMember, targetMatched⟩ :=
          (unique.matchedCount_eq_one_iff pinned).mp matched
        simp only [finalizeEntries, finalizeClaimedOutboxEntries, List.map_cons, matched,
          ↓reduceIte]
        refine ⟨_, spec.cons_matched unique ?_ pinned targetMember targetMatched⟩
        intro entry held
        have named := (finalizeFilter_iff.mp held).2
        refine ⟨_, now, ?_, finalizeFilter_iff.mpr ⟨List.mem_singleton_self _, named⟩, rfl⟩
        rintro rfl
        rfl
      · simp only [finalizeEntries, finalizeClaimedOutboxEntries, List.map_cons, matched,
          ↓reduceIte]
        refine ⟨fate, spec.cons_unmatched ?_⟩
        intro entry member
        by_contra held
        exact matched ((unique.matchedCount_eq_one_iff pinned).mpr
          ⟨entry, member, by simpa using held⟩)

/-! ## The finalisation transaction -/

theorem mem_mapPublishResultsToEntries {batch : List OutboxEntry} {results : List EntryId}
    {entry : OutboxEntry} (member : entry ∈ mapPublishResultsToEntries batch results) :
    entry ∈ batch ∧ getEntryId entry ∈ results := by
  obtain ⟨result, named, found⟩ := List.mem_filterMap.mp member
  have same := List.find?_some found
  simp only [decide_eq_true_eq] at same
  exact ⟨List.mem_reverse.mp (List.mem_of_find?_eq_some found), same ▸ named⟩

/-- A finalisation keeps the identifiers in place. -/
theorem FinalizeSpec.map_id {cfg : Config} {workerId : WorkerId} {outcome : DeliveryOutcome}
    {calls outbox : List OutboxEntry} {result : Finalization} {fate : OutboxEntry → OutboxEntry}
    (spec : FinalizeSpec cfg workerId outcome calls outbox result fate) :
    result.outbox.map OutboxEntry.id = outbox.map OutboxEntry.id := by
  rw [spec.outbox_eq, List.map_map]
  apply List.map_congr_left
  intro entry member
  rcases spec.each entry member with kept | changed
  · exact congrArg OutboxEntry.id kept.1
  · exact changed.1.id_eq

/-- What a committed transaction has done to the outbox. -/
structure BatchSpec (cfg : Config) (workerId : WorkerId) (batch outbox : List OutboxEntry)
    (result : BatchFinalization) (fate : OutboxEntry → OutboxEntry) : Prop where
  outbox_eq : result.outbox = outbox.map fate
  each : ∀ entry ∈ outbox,
    (fate entry = entry ∧ entry.id ∉ result.finalizedSuccessful.map OutboxEntry.id ∧
        entry.id ∉ result.finalizedFailed.map OutboxEntry.id) ∨
      ∃ outcome, Finalised cfg workerId outcome entry (fate entry) ∧
        (entry.id ∈ result.finalizedSuccessful.map OutboxEntry.id ↔ outcome = .succeeded) ∧
        (entry.id ∈ result.finalizedFailed.map OutboxEntry.id ↔ outcome = .failed)
  successful : ∀ labelled ∈ result.finalizedSuccessful,
    (∃ entry ∈ outbox, entry.id = labelled.id) ∧
      ∃ entry ∈ batch, labelled = { entry with status := .sent }
  failed : ∀ labelled ∈ result.finalizedFailed,
    (∃ entry ∈ outbox, entry.id = labelled.id) ∧
      ∃ entry ∈ batch,
        labelled = { entry with status := resolveFailedStatus entry.attempts cfg.outboxMaxAttempts }
  distinct : ((result.finalizedSuccessful ++ result.finalizedFailed).map OutboxEntry.id).Nodup

theorem finalizeBatch_spec (cfg : Config) (workerId : WorkerId) (batch : List OutboxEntry)
    (results : PublishResults) (times : List Time) (publishedAt : Time)
    {outbox : List OutboxEntry} (metadata : List MetadataDocument)
    (unique : UniqueBy OutboxEntry.id outbox) :
    ∃ fate, BatchSpec cfg workerId batch outbox
      (finalizeBatch cfg workerId batch results times publishedAt outbox metadata) fate := by
  obtain ⟨first, sent⟩ := finalizeEntries_spec cfg workerId .succeeded []
    ((mapPublishResultsToEntries batch results.successful).zip times) unique
  simp only [finalizeBatch]
  generalize finalizeEntries cfg workerId .succeeded []
    ((mapPublishResultsToEntries batch results.successful).zip times) outbox = successfulResult
    at sent
  have uniqueAfter : UniqueBy OutboxEntry.id successfulResult.outbox := by
    rw [UniqueBy, sent.map_id]
    exact unique
  obtain ⟨second, retried⟩ := finalizeEntries_spec cfg workerId .failed results.failed
    ((mapPublishResultsToEntries batch (results.failed.map PublishFailure.id)).zip
      (times.drop (mapPublishResultsToEntries batch results.successful).length)) uniqueAfter
  have called {named : List EntryId} {given : List Time} {entry : OutboxEntry}
      (member : entry ∈ ((mapPublishResultsToEntries batch named).zip given).map Prod.fst) :
      entry ∈ batch := by
    obtain ⟨call, inCalls, rfl⟩ := List.mem_map.mp member
    exact (mem_mapPublishResultsToEntries (List.of_mem_zip inCalls).1).1
  have between {entry : OutboxEntry} (member : entry ∈ outbox) :
      first entry ∈ successfulResult.outbox := by
    rw [sent.outbox_eq]
    exact List.mem_map_of_mem member
  refine ⟨fun entry => second (first entry), ?_, ?_, ?_, ?_, ?_⟩
  · rw [retried.outbox_eq, sent.outbox_eq, List.map_map]
    rfl
  · intro entry member
    have sameId : (first entry).id = entry.id := by
      rcases sent.each entry member with kept | changed
      · rw [kept.1]
      · exact changed.1.id_eq
    have later := retried.each _ (between member)
    rw [sameId] at later
    rcases sent.each entry member with ⟨kept, notSent⟩ | ⟨changed, isSent⟩
    · rcases later with ⟨keptAgain, notFailed⟩ | ⟨changed, isFailed⟩
      · exact Or.inl ⟨by rw [keptAgain, kept], notSent, notFailed⟩
      · rw [kept] at changed
        exact Or.inr ⟨.failed, by rwa [kept], by simp [notSent], by simp [isFailed]⟩
    · -- A sent entry is not under a claim any more, so no later call matches it.
      rcases later with ⟨keptAgain, notFailed⟩ | ⟨changedAgain, _⟩
      · exact Or.inr ⟨.succeeded, by rwa [keptAgain], by simp [isSent], by simp [notFailed]⟩
      · exact absurd changedAgain.processing changed.not_processing
  · intro labelled member
    obtain ⟨found, entry, inCalls, label⟩ := sent.named labelled member
    exact ⟨found, entry, called inCalls, label⟩
  · intro labelled member
    obtain ⟨⟨after, found, same⟩, entry, inCalls, label⟩ := retried.named labelled member
    have sameIds : after.id ∈ outbox.map OutboxEntry.id := by
      rw [← sent.map_id]
      exact List.mem_map_of_mem found
    obtain ⟨before, beforeMember, equal⟩ := List.mem_map.mp sameIds
    exact ⟨⟨before, beforeMember, equal.trans same⟩, entry, called inCalls, label⟩
  · rw [List.map_append]
    refine List.Nodup.append sent.distinct retried.distinct ?_
    intro id isSent isFailed
    obtain ⟨labelled, member, rfl⟩ := List.mem_map.mp isSent
    obtain ⟨entry, stored, same⟩ := (sent.named labelled member).1
    rcases sent.each entry stored with ⟨_, notSent⟩ | ⟨changed, _⟩
    · exact notSent (same ▸ isSent)
    · rcases retried.each _ (between stored) with ⟨_, notFailed⟩ | ⟨changedAgain, _⟩
      · exact notFailed ((changed.id_eq.trans same) ▸ isFailed)
      · exact changed.not_processing changedAgain.processing

/-- What a call of `finalizeEntries` has finalised was picked from the batch by a result. -/
theorem picked_of_finalized {cfg : Config} {workerId : WorkerId} {outcome : DeliveryOutcome}
    {failedResults : List PublishFailure} {batch : List OutboxEntry} {named : List EntryId}
    {times : List Time} {outbox : List OutboxEntry} (unique : UniqueBy OutboxEntry.id outbox)
    {labelled : OutboxEntry}
    (member : labelled ∈ (finalizeEntries cfg workerId outcome failedResults
      ((mapPublishResultsToEntries batch named).zip times) outbox).finalized) :
    ∃ entry ∈ batch, getEntryId entry ∈ named ∧ labelled.id = entry.id := by
  obtain ⟨fate, spec⟩ := finalizeEntries_spec cfg workerId outcome failedResults
    ((mapPublishResultsToEntries batch named).zip times) unique
  obtain ⟨_, entry, called, rfl⟩ := spec.named labelled member
  obtain ⟨call, inCalls, rfl⟩ := List.mem_map.mp called
  obtain ⟨inBatch, isNamed⟩ := mem_mapPublishResultsToEntries (List.of_mem_zip inCalls).1
  exact ⟨call.1, inBatch, isNamed, rfl⟩

/-- A committed transaction has sent only entries named as successful. -/
theorem named_of_finalizedSuccessful {cfg : Config} {workerId : WorkerId}
    {batch : List OutboxEntry} {results : PublishResults} {times : List Time} {publishedAt : Time}
    {outbox : List OutboxEntry} {metadata : List MetadataDocument}
    (unique : UniqueBy OutboxEntry.id outbox) {labelled : OutboxEntry}
    (member : labelled ∈ (finalizeBatch cfg workerId batch results times publishedAt outbox
      metadata).finalizedSuccessful) :
    ∃ entry ∈ batch, getEntryId entry ∈ results.successful ∧ labelled.id = entry.id :=
  picked_of_finalized unique member

/-- A committed transaction has failed only entries named as failed. -/
theorem named_of_finalizedFailed {cfg : Config} {workerId : WorkerId}
    {batch : List OutboxEntry} {results : PublishResults} {times : List Time} {publishedAt : Time}
    {outbox : List OutboxEntry} {metadata : List MetadataDocument}
    (unique : UniqueBy OutboxEntry.id outbox) {labelled : OutboxEntry}
    (member : labelled ∈ (finalizeBatch cfg workerId batch results times publishedAt outbox
      metadata).finalizedFailed) :
    ∃ entry ∈ batch, getEntryId entry ∈ results.failed.map PublishFailure.id ∧
      labelled.id = entry.id := by
  obtain ⟨fate, sent⟩ := finalizeEntries_spec cfg workerId .succeeded []
    ((mapPublishResultsToEntries batch results.successful).zip times) unique
  refine picked_of_finalized ?_ member
  rw [UniqueBy, sent.map_id]
  exact unique

end ObjectProcessor
