import Mathlib.Data.List.TakeDrop
import ObjectProcessor.Callback.Effect

/-!
# The effect of a callback and its answer

A callback adds the documents of an upload with their records and entries, adds
the records of a failure, or changes nothing, and its answer says which.  The
records of a failure are the exception: they are inserted one after the other
outside a transaction, and the answer is built after them and may still fail.
-/

namespace ObjectProcessor

open Library

/-- The documents of an upload are added, each with a record and a pending entry. -/
structure AddsUpload (before after : Store) (documents : List MetadataDocument)
    (records : List StatusRecord) (entries : List OutboxEntry) : Prop where
  nonempty : documents ≠ []
  store_eq : after = { before with
    metadata := before.metadata ++ documents
    status := before.status ++ records
    outbox := before.outbox ++ entries }
  validated : ∀ record ∈ records, record.validated = true
  pending : ∀ entry ∈ entries, entry.status = .pending ∧ entry.attempts = 0
  distinct : (documents.map MetadataDocument.fileId).Nodup
  recordFiles : records.map StatusRecord.fileId = documents.map MetadataDocument.fileId
  entryFiles : entries.map OutboxEntry.fileId = documents.map MetadataDocument.fileId
  correlated : ∃ correlationId,
    (∀ document ∈ documents, document.messaging.correlationId = correlationId) ∧
      (∀ record ∈ records, record.correlationId = correlationId) ∧
      ∀ entry ∈ entries, entry.payload.messaging.correlationId = correlationId
  complete : ∀ document ∈ documents, document.file.fileStatus = some (.str "complete")

/-- The records of a failure are added, one for every file of the payload. -/
def AddsFailures (before after : Store) (payload : Json) : Prop :=
  ∃ records, after = { before with status := before.status ++ records } ∧
    (∀ record ∈ records, record.validated = false) ∧
    records.map StatusRecord.fileId = (extractFileIdsFromPayload payload).map Json.str

section

variable (cfg : Config) (env : CallbackEnv) (store : Store) (body : Json)

/-- Whether writing the records of a failure fails. -/
def FailureWriteFails : Prop :=
  assertCorrelationId cfg (callbackCorrelationId cfg env store body) = false ∨
    env.failureInsertStops.isSome = true

/-- The collections change as the answer says. -/
def AllOrNothing : Prop :=
  let after := (uploadCallback cfg env store body).store
  match (uploadCallback cfg env store body).response with
  | .metadataCreated count ids =>
      ∃ documents records entries, AddsUpload store after documents records entries ∧
        count = documents.length ∧
        ids = documents.map fun document => document.id.toHexString
  | .validationFailurePersisted =>
      AddsFailures store after (handledPayload cfg body) ∨
        (after = store ∧ FailureWriteFails cfg env store body)
  | .duplicateIgnored | .internalError => after = store

/-- The error a callback is refused with.  The fail action throws before it records
anything when the customer reference does not convert to a text. -/
def refusal : Option ValidationError :=
  if callbackPayloadSchema cfg body then
    (validateCallbackPayload (handledPayload cfg body)).map .ofMessage
  else if canConvert (metadataField body "crn") then some env.validationError
  else none

/-- The records of a failure are written as a whole or not at all, and the answer to
a body the schema refuses can be built, unless nothing was written. -/
structure AnswersTruthfully : Prop where
  whole : (refusal cfg env body).isSome = true →
    assertCorrelationId cfg (callbackCorrelationId cfg env store body) = true →
      ∀ written, env.failureInsertStops = some written →
        written = 0 ∨ (extractFileIdsFromPayload (handledPayload cfg body)).length ≤ written
  answered : callbackPayloadSchema cfg body = false →
    canConvert (metadataField body "crn") = true →
      canConvert (metadataField body "sbi") = false →
        assertCorrelationId cfg (callbackCorrelationId cfg env store body) = true →
          env.failureInsertStops = some 0

end

variable {cfg : Config} {env : CallbackEnv} {store : Store} {body : Json}

/-! ## The branches of the endpoint -/

theorem answerWithAudits_response (store : Store) (response : CallbackResponse)
    (body : Json) (correlationId action status reason : String) :
    (answerWithAudits store response
        (auditFiles body correlationId action status reason)).response =
      if canConvert (metadataField body "sbi") = true then response else .internalError := by
  unfold auditFiles buildAuditAccounts
  by_cases converts : canConvert (metadataField body "sbi") = true
  · rw [if_pos converts, if_pos converts]
    rfl
  · rw [if_neg converts, if_neg converts]
    rfl

variable (store) in
/-- A refused callback writes the records of its failure and then answers. -/
theorem uploadCallback_refused {error : ValidationError}
    (refused : refusal cfg env body = some error) :
    (uploadCallback cfg env store body).store =
        (persistValidationFailureStatus cfg env store (handledPayload cfg body) error
          (callbackCorrelationId cfg env store body)).2 ∧
      (uploadCallback cfg env store body).response =
        if callbackPayloadSchema cfg body = true ∨
            canConvert (metadataField body "sbi") = true then .validationFailurePersisted
        else .internalError := by
  unfold refusal at refused
  by_cases schema : callbackPayloadSchema cfg body = true
  · rw [if_pos schema, Option.map_eq_some_iff] at refused
    obtain ⟨message, invalid, rfl⟩ := refused
    have request : validatedPayload body = requestPayload cfg body := by
      rw [requestPayload, if_pos schema]
    rw [handledPayload] at invalid
    simp only [uploadCallback, schema, ↓reduceIte, callbackHandler,
      resolveCallbackCorrelation_payload, request, invalid, true_or]
    exact ⟨rfl, trivial⟩
  · rw [if_neg schema] at refused
    have request : requestPayload cfg body = body := if_neg schema
    split at refused
    · rename_i readable
      cases refused
      simp only [uploadCallback, schema, Bool.false_eq_true, ↓reduceIte, callbackFailAction,
        readable, resolveCallbackCorrelation_payload, answerWithAudits_store, false_or,
        answerWithAudits_response, and_true]
      simp only [callbackCorrelationId, handledPayload, request]
    · cases refused

variable (env store) in
/-- A body the schema refuses and whose log line cannot be built leaves no trace. -/
theorem uploadCallback_unreadable (schema : callbackPayloadSchema cfg body = false)
    (unreadable : canConvert (metadataField body "crn") = false) :
    (uploadCallback cfg env store body).store = store ∧
      (uploadCallback cfg env store body).response = .internalError := by
  simp [uploadCallback, schema, callbackFailAction, unreadable]

/-- The business identifier of an accepted body converts to a text. -/
theorem canConvert_sbi (schema : callbackPayloadSchema cfg body = true) :
    canConvert (metadataField (validatedPayload body) "sbi") = true := by
  obtain ⟨metadata, found, valid⟩ := accepted_metadata schema
  have key : (Schema.required (Schema.integer schemaConsts.SBI_MIN schemaConsts.SBI_MAX)).admits
      (metadata.get? "sbi") = true := Schema.object_key valid (by simp [baseMetadataKeys])
  obtain ⟨sbi, present, isInteger⟩ := Schema.admits_required key
  obtain ⟨number, rfl, _⟩ := Schema.integer_eq_true isInteger
  rw [metadataField, validatedPayload_get? body (by decide), found, Option.bind_some, present]
  rfl

variable (env store) in
/-- A callback that passes both validations commits its documents and says so, or
changes nothing. -/
theorem uploadCallback_passed (schema : callbackPayloadSchema cfg body = true)
    (valid : validateCallbackPayload (handledPayload cfg body) = none) :
    (∃ documents, Accepted cfg env store body documents ∧
        (uploadCallback cfg env store body).store = commitDocuments env store documents ∧
        (uploadCallback cfg env store body).response = .metadataCreated documents.length
          (((List.range documents.length).map env.documentId).map ObjectId.toHexString)) ∨
      ((uploadCallback cfg env store body).store = store ∧
        ((uploadCallback cfg env store body).response = .duplicateIgnored ∨
          (uploadCallback cfg env store body).response = .internalError)) := by
  have request : validatedPayload body = requestPayload cfg body := by
    rw [requestPayload, if_pos schema]
  have converts := canConvert_sbi schema
  have outcome := persistMetadataWithOutbox_cases env store schema valid
  simp only [callbackCorrelationId, handledPayload] at outcome valid
  rw [request] at converts
  simp only [uploadCallback, schema, ↓reduceIte, callbackHandler,
    resolveCallbackCorrelation_payload, request, valid]
  rcases outcome with ⟨documents, accepted, same⟩ | ⟨notInserted, same⟩
  · refine Or.inl ⟨documents, accepted, ?_⟩
    rw [same]
    simp only [answerWithAudits_store, answerWithAudits_response, converts, ↓reduceIte,
      List.length_map, List.length_range, and_self]
  · refine Or.inr ?_
    split
    · rename_i found
      rw [found] at same
      exact ⟨same, Or.inl rfl⟩
    · rename_i found
      rw [found] at notInserted
      exact absurd rfl (notInserted _)
    · rename_i found
      rw [found] at same
      simp only [answerWithAudits_store, answerWithAudits_response, converts, ↓reduceIte]
      exact ⟨same, Or.inr trivial⟩

/-! ## What the branches add -/

/-- A commit adds an upload. -/
theorem addsUpload_of_accepted {documents : List InboundDocument}
    (accepted : Accepted cfg env store body documents) :
    AddsUpload store (commitDocuments env store documents) (withIds env.documentId documents)
      (buildValidatedStatusDocuments env.now documents)
      (createOutboxEntries env.now env.entryId (withIds env.documentId documents)) := by
  have files := map_withIds (fun document => document.file.fileId) env.documentId documents
  have payloads := map_payload_createOutboxEntries env.now env.entryId
    (withIds env.documentId documents)
  rw [accepted.filter_isComplete] at payloads
  constructor
  · intro none
    have empty := congrArg List.length none
    rw [length_withIds, List.length_nil] at empty
    exact accepted.nonempty (List.eq_nil_of_length_eq_zero empty)
  · rfl
  · intro record member
    obtain ⟨document, _, rfl⟩ := List.mem_map.mp member
    rfl
  · intro entry member
    obtain ⟨document, _, _, same⟩ := mem_createOutboxEntries member
    rw [same]
    exact ⟨rfl, rfl⟩
  · exact files ▸ accepted.distinct
  · rw [buildValidatedStatusDocuments, List.map_map]
    exact files.symm
  · have payloadFiles := congrArg (List.map MetadataDocument.fileId) payloads
    rwa [List.map_map] at payloadFiles
  · refine ⟨callbackCorrelationId cfg env store body, ?_, ?_, ?_⟩
    · intro document member
      exact (accepted.document (inbound_of_mem_withIds member)).2.2.1
    · intro record member
      obtain ⟨document, isDocument, rfl⟩ := List.mem_map.mp member
      exact (accepted.document isDocument).2.2.1
    · intro entry member
      obtain ⟨document, isDocument, _, same⟩ := mem_createOutboxEntries member
      rw [same]
      exact (accepted.document (inbound_of_mem_withIds isDocument)).2.2.1
  · intro document member
    exact (accepted.document (inbound_of_mem_withIds member)).1

variable (cfg env store body) in
theorem failureRecords_length (error : ValidationError) :
    (failureRecords cfg env store body error).length =
      (extractFileIdsFromPayload (handledPayload cfg body)).length := by
  rw [failureRecords, buildValidationFailureStatusDocuments, List.length_map]

/-- All records of a failure, added together. -/
theorem addsFailures_of_whole (error : ValidationError) :
    AddsFailures store
      { store with status := store.status ++ failureRecords cfg env store body error }
      (handledPayload cfg body) := by
  refine ⟨failureRecords cfg env store body error, rfl, ?_, ?_⟩
  · intro record member
    obtain ⟨fileId, _, rfl⟩ := List.mem_map.mp member
    rfl
  · rw [failureRecords, buildValidationFailureStatusDocuments, List.map_map]
    rfl

/-- The records of a failure that are written before the insertion stops. -/
def writtenRecords (env : CallbackEnv) (records : List StatusRecord) : List StatusRecord :=
  records.take (env.failureInsertStops.getD records.length)

theorem persistValidationFailureStatus_store (error : ValidationError) :
    (persistValidationFailureStatus cfg env store (handledPayload cfg body) error
        (callbackCorrelationId cfg env store body)).2 =
      if assertCorrelationId cfg (callbackCorrelationId cfg env store body) = true then
        { store with
          status := store.status ++
            writtenRecords env (failureRecords cfg env store body error) }
      else store := by
  unfold persistValidationFailureStatus writtenRecords
  by_cases minted : assertCorrelationId cfg (callbackCorrelationId cfg env store body) = true
  · rw [if_pos minted, if_pos minted]
    cases env.failureInsertStops with
    | none => simp [failureRecords]
    | some written => rfl
  · rw [if_neg minted, if_neg minted]

theorem writtenRecords_eq_nil {records : List StatusRecord} (nonempty : records ≠ []) :
    writtenRecords env records = [] ↔ env.failureInsertStops = some 0 := by
  unfold writtenRecords
  rw [List.take_eq_nil_iff]
  cases env.failureInsertStops with
  | none => simp [nonempty]
  | some written => simp [nonempty]

/-- All records are written unless the insertion stops before the last one. -/
theorem writtenRecords_eq_self {records : List StatusRecord} :
    writtenRecords env records = records ↔
      ∀ written, env.failureInsertStops = some written → records.length ≤ written := by
  unfold writtenRecords
  rw [List.take_eq_self_iff]
  cases env.failureInsertStops with
  | none => simp
  | some written => simp

theorem addStatus_eq_self {records : List StatusRecord} :
    { store with status := store.status ++ records } = store ↔ records = [] := by
  constructor
  · intro same
    exact List.append_right_eq_self.mp (congrArg Store.status same)
  · rintro rfl
    rw [List.append_nil]

/-- The written records are those of the failure only if all are written. -/
theorem addsFailures_written_iff (error : ValidationError) :
    AddsFailures store
        { store with
          status := store.status ++ writtenRecords env (failureRecords cfg env store body error) }
        (handledPayload cfg body) ↔
      writtenRecords env (failureRecords cfg env store body error) =
        failureRecords cfg env store body error := by
  constructor
  · rintro ⟨records, same, _, files⟩
    have written := List.append_cancel_left (congrArg Store.status same)
    have number := congrArg List.length files
    rw [List.length_map, List.length_map, ← failureRecords_length cfg env store body error,
      ← written] at number
    exact (List.take_sublist ..).eq_of_length number
  · intro whole
    rw [whole]
    exact addsFailures_of_whole error

/-! ## The exact condition -/

/-- A callback that passes both validations answers truthfully whatever fails. -/
theorem allOrNothing_of_passed (schema : callbackPayloadSchema cfg body = true)
    (valid : validateCallbackPayload (handledPayload cfg body) = none) :
    AllOrNothing cfg env store body := by
  unfold AllOrNothing
  rcases uploadCallback_passed env store schema valid with
    ⟨documents, accepted, same, response⟩ | ⟨same, response | response⟩
  · simp only [response, same]
    refine ⟨_, _, _, addsUpload_of_accepted accepted, (length_withIds ..).symm, ?_⟩
    have ids := congrArg (List.map ObjectId.toHexString) (map_id_withIds env.documentId documents)
    rw [← ids, List.map_map]
    rfl
  · simp only [response, same]
  · simp only [response, same]

/-- A refused callback answers truthfully exactly when its records are written as a
whole or not at all, and, where the answer cannot be built, not at all. -/
theorem allOrNothing_of_refused {error : ValidationError}
    (refused : refusal cfg env body = some error) :
    AllOrNothing cfg env store body ↔ AnswersTruthfully cfg env store body := by
  obtain ⟨stored, response⟩ := uploadCallback_refused store refused
  rw [persistValidationFailureStatus_store] at stored
  have some_record : failureRecords cfg env store body error ≠ [] := by
    rw [← List.length_pos_iff, failureRecords_length, List.length_pos_iff]
    exact extractFileIdsFromPayload_ne_nil _
  have number := failureRecords_length cfg env store body error
  unfold AllOrNothing
  cases minted : assertCorrelationId cfg (callbackCorrelationId cfg env store body) with
  | false =>
      rw [minted, if_neg (by simp)] at stored
      have truthful : AnswersTruthfully cfg env store body :=
        ⟨fun _ isMinted => by simp [minted] at isMinted,
          fun _ _ _ isMinted => by simp [minted] at isMinted⟩
      refine iff_of_true ?_ truthful
      rw [response, stored]
      split_ifs
      · exact Or.inr ⟨rfl, Or.inl minted⟩
      · rfl
  | true =>
      rw [minted, if_pos rfl] at stored
      rw [response, stored]
      split_ifs with built
      · simp only [addsFailures_written_iff, addStatus_eq_self, writtenRecords_eq_nil some_record]
        constructor
        · intro outcome
          refine ⟨fun _ _ written stops => ?_, fun schema _ unbuilt => ?_⟩
          · rw [← number]
            rcases outcome with whole | ⟨nothing, _⟩
            · exact Or.inr (writtenRecords_eq_self.mp whole written stops)
            · exact Or.inl (Option.some.inj (stops.symm.trans nothing))
          · simp [schema, unbuilt] at built
        · intro truthful
          cases stops : env.failureInsertStops with
          | none => exact Or.inl (writtenRecords_eq_self.mpr (by simp [stops]))
          | some written =>
              rcases truthful.whole (by simp [refused]) minted written stops with rfl | whole
              · exact Or.inr ⟨rfl, Or.inr (by simp [stops])⟩
              · refine Or.inl (writtenRecords_eq_self.mpr fun other same => ?_)
                cases stops.symm.trans same
                rwa [number]
      · simp only [addStatus_eq_self, writtenRecords_eq_nil some_record]
        simp only [not_or, Bool.not_eq_true] at built
        have readable : canConvert (metadataField body "crn") = true := by
          by_contra unreadable
          simp [refusal, built.1, unreadable] at refused
        constructor
        · intro nothing
          refine ⟨fun _ _ written stops => Or.inl ?_, fun _ _ _ _ => nothing⟩
          exact Option.some.inj (stops.symm.trans nothing)
        · intro truthful
          exact truthful.answered built.1 readable built.2 minted

/-- The collections change as the answer says exactly when the records of a failure
are written as a whole or not at all, and a 500 follows no written record. -/
theorem all_or_nothing_iff (cfg : Config) (env : CallbackEnv) (store : Store) (body : Json) :
    AllOrNothing cfg env store body ↔ AnswersTruthfully cfg env store body := by
  cases refused : refusal cfg env body with
  | some error => exact allOrNothing_of_refused refused
  | none =>
      refine iff_of_true ?_ ⟨fun isRefused => by simp [refused] at isRefused, ?_⟩
      · by_cases schema : callbackPayloadSchema cfg body = true
        · rw [refusal, if_pos schema, Option.map_eq_none_iff] at refused
          exact allOrNothing_of_passed schema refused
        · have unreadable : canConvert (metadataField body "crn") = false := by
            simpa [refusal, schema] using refused
          have result := uploadCallback_unreadable env store (by simpa using schema) unreadable
          unfold AllOrNothing
          simp only [result.1, result.2]
      · intro schema readable
        simp [refusal, schema, readable] at refused

/-- A body whose business identifier is an object with a field `toString`. -/
def Sample.unconvertibleBody : Json :=
  .obj [("metadata", .obj [("sbi", .obj [("toString", .int 1)])])]

def Sample.emptyStore : Store where
  sessions := []
  metadata := []
  status := []
  outbox := []

/-- The failure is recorded, and the answer is an internal error. -/
theorem Sample.recorded_failure_answers_500 :
    (uploadCallback Sample.config (Sample.env 1) Sample.emptyStore
        Sample.unconvertibleBody).response = .internalError ∧
      ((uploadCallback Sample.config (Sample.env 1) Sample.emptyStore
        Sample.unconvertibleBody).store.status.map StatusRecord.validated) = [false] ∧
      ¬ AllOrNothing Sample.config (Sample.env 1) Sample.emptyStore Sample.unconvertibleBody := by
  have response : (uploadCallback Sample.config (Sample.env 1) Sample.emptyStore
      Sample.unconvertibleBody).response = .internalError := by decide
  refine ⟨response, by decide, fun property => ?_⟩
  unfold AllOrNothing at property
  simp only [response] at property
  exact absurd property (by decide)

end ObjectProcessor
