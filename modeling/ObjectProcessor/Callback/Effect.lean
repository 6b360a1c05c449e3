import ObjectProcessor.Callback.Handler

/-!
# What a callback can do to the store

A callback commits the documents of an accepted payload, appends the records of
a failure, or leaves the store alone.  Whoever reasons about the store uses this
classification and never opens the handler.
-/

namespace ObjectProcessor

open Library Schema

section Effect

variable (cfg : Config) (env : CallbackEnv) (store : Store) (body : Json)

/-- `request.payload` once the schema has run: a refused body stays as it came. -/
def requestPayload : Json :=
  if callbackPayloadSchema cfg body then validatedPayload body else body

/-- The payload without its journey identifier. -/
def handledPayload : Json := strippedPayload (requestPayload cfg body)

/-- The identifier everything the callback writes is recorded under. -/
def callbackCorrelationId : String :=
  (resolveCallbackCorrelation cfg (env.sessionsSeen.map store.sessions.take) env.generated
    (requestPayload cfg body)).1

/-- The documents a callback commits: built from an accepted payload, and new. -/
structure Accepted (documents : List InboundDocument) : Prop where
  schema : callbackPayloadSchema cfg body = true
  valid : validateCallbackPayload (handledPayload cfg body) = none
  formatted : formatInboundMetadata cfg (handledPayload cfg body)
    (callbackCorrelationId cfg env store body) = some documents
  nonempty : documents ≠ []
  distinct : (documents.map fun document => document.file.fileId).Nodup
  fresh : ∀ document ∈ documents, ∀ stored ∈ store.metadata,
    stored.fileId ≠ document.file.fileId

/-- The records of a callback that is refused with the given error. -/
def failureRecords (error : ValidationError) : List StatusRecord :=
  buildValidationFailureStatusDocuments env.now (handledPayload cfg body) error
    (callbackCorrelationId cfg env store body)

inductive CallbackEffect : Store → Prop where
  | unchanged : CallbackEffect store
  | failed (error : ValidationError) (written : Nat) :
      CallbackEffect { store with
        status := store.status ++ (failureRecords cfg env store body error).take written }
  | committed (documents : List InboundDocument)
      (accepted : Accepted cfg env store body documents) :
      CallbackEffect (commitDocuments env store documents)

end Effect

@[simp]
theorem answerWithAudits_store (store : Store) (response : CallbackResponse)
    (audits : Option (List AuditEvent)) :
    (answerWithAudits store response audits).store = store := by
  cases audits <;> rfl

theorem persistValidationFailureStatus_effect (cfg : Config) (env : CallbackEnv) (store : Store)
    (body : Json) (error : ValidationError) :
    CallbackEffect cfg env store body
      (persistValidationFailureStatus cfg env store (handledPayload cfg body) error
        (callbackCorrelationId cfg env store body)).2 := by
  rw [persistValidationFailureStatus]
  split
  · split
    · have all : CallbackEffect cfg env store body { store with
          status := store.status ++ (failureRecords cfg env store body error).take
            (failureRecords cfg env store body error).length } := .failed error _
      rwa [List.take_length] at all
    · exact .failed error _
  · exact .unchanged

/-- How persisting an accepted payload ends. -/
theorem persistMetadataWithOutbox_cases {cfg : Config} (env : CallbackEnv) (store : Store)
    {body : Json} (schema : callbackPayloadSchema cfg body = true)
    (valid : validateCallbackPayload (handledPayload cfg body) = none) :
    let outcome := persistMetadataWithOutbox cfg env store (handledPayload cfg body)
      (callbackCorrelationId cfg env store body)
    (∃ documents, Accepted cfg env store body documents ∧
        outcome = (.inserted ((List.range documents.length).map env.documentId),
          commitDocuments env store documents)) ∨
      ((∀ ids, outcome.1 ≠ .inserted ids) ∧ outcome.2 = store) := by
  intro outcome
  simp only [outcome]
  rw [persistMetadataWithOutbox]
  split
  · exact Or.inr ⟨fun _ same => PersistResult.noConfusion same, rfl⟩
  · exact Or.inr ⟨fun _ same => PersistResult.noConfusion same, rfl⟩
  · rename_i documents nonempty formatted
    split
    · exact Or.inr ⟨fun _ same => PersistResult.noConfusion same, rfl⟩
    · split
      · refine Or.inr ⟨fun ids same => ?_, rfl⟩
        simp only [resolveDuplicate] at same
        split at same
        · cases same
        · split at same
          · cases same
          · split at same <;> cases same
      · rename_i noConflict
        have fresh := hasDuplicateKey_eq_false.mp (by simpa using noConflict)
        exact Or.inl ⟨documents, ⟨schema, valid, formatted, nonempty, fresh.1, fresh.2⟩, rfl⟩

/-- Every callback has one of the three effects. -/
theorem uploadCallback_effect (cfg : Config) (env : CallbackEnv) (store : Store) (body : Json) :
    CallbackEffect cfg env store body (uploadCallback cfg env store body).store := by
  rw [uploadCallback]
  split
  · rename_i schema
    have request : validatedPayload body = requestPayload cfg body := by
      rw [requestPayload, if_pos schema]
    simp only [callbackHandler, resolveCallbackCorrelation_payload, request]
    split
    · exact persistValidationFailureStatus_effect ..
    · rename_i valid
      rcases persistMetadataWithOutbox_cases env store schema valid with
        ⟨documents, accepted, same⟩ | ⟨_, same⟩
      · simp only [callbackCorrelationId, handledPayload] at same
        rw [same]
        simpa using CallbackEffect.committed documents accepted
      · simp only [callbackCorrelationId, handledPayload] at same
        split
        all_goals
          rename_i outcome
          rw [outcome] at same
          simp only at same
          subst same
          simpa using CallbackEffect.unchanged
  · rename_i refused
    have request : requestPayload cfg body = body := if_neg refused
    simp only [callbackFailAction]
    split
    · have effect := persistValidationFailureStatus_effect cfg env store body env.validationError
      simp only [callbackCorrelationId, handledPayload, request] at effect
      simpa using effect
    · exact .unchanged

/-! ## The documents of an accepted callback -/

section Accepted

variable {cfg : Config} {body : Json}

theorem validatedPayload_isObj (accepted : callbackPayloadSchema cfg body = true) :
    ∃ fields, validatedPayload body = .obj fields := by
  obtain ⟨fields, rfl, _⟩ := object_eq_true accepted
  rw [validatedPayload]
  split <;> exact ⟨_, rfl⟩

/-- The handled payload has the form of the body. -/
theorem handledPayload_form (accepted : callbackPayloadSchema cfg body = true) :
    (handledPayload cfg body).get? "form" = body.get? "form" := by
  rw [handledPayload, requestPayload, if_pos accepted,
    strippedPayload_get? (validatedPayload_isObj accepted) (by decide) (by decide),
    validatedPayload_get? body (by decide)]

/-- The handled payload has the business fields of the body's metadata. -/
theorem handledPayload_metadata (accepted : callbackPayloadSchema cfg body = true) :
    ∃ metadata, (handledPayload cfg body).get? "metadata" = some metadata ∧
      ∀ name, Json.arrayIndex? name = none → name ≠ journeyIdKey →
        metadata.get? name = metadataField body name := by
  obtain ⟨metadata, found, valid⟩ := accepted_metadata accepted
  obtain ⟨fields, rfl, _⟩ := object_eq_true valid
  refine ⟨(splitJourneyId (some (.obj fields))).2, ?_, ?_⟩
  · rw [handledPayload, requestPayload, if_pos accepted, strippedPayload_metadata,
      validatedPayload_get? body (by decide), found]
  · intro name plain other
    rw [splitJourneyId_get? fields plain other, metadataField, found]
    rfl

variable {env : CallbackEnv} {store : Store} {documents : List InboundDocument}

theorem Accepted.length_eq (accepted : Accepted cfg env store body documents) :
    documents.length = (normalisedFiles (body.get? "form")).length := by
  have formatted := accepted.formatted
  rw [formatInboundMetadata, handledPayload_form accepted.schema] at formatted
  split at formatted
  · simp only [Option.some.injEq] at formatted
    rw [← formatted, List.length_map]
  · cases formatted

/-- Each document is built from a file of the form, which the schema and the
later stages have accepted. -/
theorem file_of_formatted {correlationId : String} (schema : callbackPayloadSchema cfg body = true)
    (valid : validateCallbackPayload (handledPayload cfg body) = none)
    (formatted : formatInboundMetadata cfg (handledPayload cfg body) correlationId =
      some documents) {document : InboundDocument} (member : document ∈ documents) :
    ∃ file ∈ flattenFormValues (body.get? "form"), hasFileId file = true ∧
      fileUploadSchema cfg file = true ∧ file.get? "fileStatus" = some (.str "complete") ∧
      document = inboundDocument (handledPayload cfg body) correlationId documents.length file := by
  have form := handledPayload_form schema
  obtain ⟨fields, found, validForm⟩ := accepted_form schema
  rw [formatInboundMetadata] at formatted
  split at formatted
  · simp only [Option.some.injEq] at formatted
    subst formatted
    obtain ⟨file, inFiles, rfl⟩ := List.mem_map.mp member
    rw [form, found] at inFiles
    obtain ⟨flat, isFile⟩ := mem_normalisedFiles rfl inFiles
    have complete := (validateCallbackPayload_eq_none.mp valid).2 file
      (by rw [form, found]; exact flat) (isFileEntry_of_hasFileId isFile)
    refine ⟨file, by rw [found]; exact flat, isFile, ?_, complete.1, by rw [List.length_map]⟩
    rcases formSchema_flat validForm flat with ⟨text, rfl⟩ | fileValid
    · simp [hasFileId, Json.isObject] at isFile
    · exact fileValid
  · cases formatted

/-- The metadata of each document is that of an initiate: the journey has been split off. -/
theorem metadata_of_formatted {correlationId : String}
    (schema : callbackPayloadSchema cfg body = true)
    (valid : validateCallbackPayload (handledPayload cfg body) = none)
    (formatted : formatInboundMetadata cfg (handledPayload cfg body) correlationId =
      some documents) {document : InboundDocument} (member : document ∈ documents) :
    baseMetadataSchema cfg document.metadata = true := by
  obtain ⟨file, _, _, _, _, rfl⟩ := file_of_formatted schema valid formatted member
  obtain ⟨metadata, found, metadataValid⟩ := accepted_metadata schema
  simp only [inboundDocument, handledPayload, requestPayload, if_pos schema]
  rw [strippedPayload_metadata, validatedPayload_get? body (by decide), found]
  exact splitJourneyId_valid metadataValid

theorem Accepted.file (accepted : Accepted cfg env store body documents)
    {document : InboundDocument} (member : document ∈ documents) :
    ∃ file ∈ flattenFormValues (body.get? "form"), hasFileId file = true ∧
      fileUploadSchema cfg file = true ∧ file.get? "fileStatus" = some (.str "complete") ∧
      document = inboundDocument (handledPayload cfg body)
        (callbackCorrelationId cfg env store body) documents.length file :=
  file_of_formatted accepted.schema accepted.valid accepted.formatted member

/-- Every document of an accepted callback is complete and not yet published. -/
theorem Accepted.document (accepted : Accepted cfg env store body documents)
    {document : InboundDocument} (member : document ∈ documents) :
    document.file.fileStatus = some (.str "complete") ∧
      document.messaging.publishedAt = none ∧
      document.messaging.correlationId = callbackCorrelationId cfg env store body ∧
      document.messaging.filesInBatch = documents.length := by
  obtain ⟨file, _, _, _, complete, rfl⟩ := accepted.file member
  exact ⟨complete, rfl, rfl, rfl⟩

/-- An accepted callback commits its documents unless the transaction fails. -/
theorem uploadCallback_of_accepted (accepted : Accepted cfg env store body documents) :
    (uploadCallback cfg env store body).store =
      if env.transactionFails then store else commitDocuments env store documents := by
  have request : validatedPayload body = requestPayload cfg body := by
    rw [requestPayload, if_pos accepted.schema]
  have valid := accepted.valid
  have persisted : (persistMetadataWithOutbox cfg env store (handledPayload cfg body)
      (callbackCorrelationId cfg env store body)).2 =
      if env.transactionFails then store else commitDocuments env store documents := by
    have new : hasDuplicateKey store.metadata documents = false :=
      hasDuplicateKey_eq_false.mpr ⟨accepted.distinct, accepted.fresh⟩
    rw [persistMetadataWithOutbox, accepted.formatted]
    cases documents with
    | nil => exact absurd rfl accepted.nonempty
    | cons first rest =>
        simp only [new, Bool.false_eq_true, ↓reduceIte]
        split <;> rfl
  simp only [handledPayload, callbackCorrelationId] at valid persisted
  rw [← persisted]
  simp only [uploadCallback, accepted.schema, ↓reduceIte, callbackHandler,
    resolveCallbackCorrelation_payload, request, valid]
  split
  · rename_i outcome
    rw [outcome]
  · rename_i outcome
    rw [outcome, answerWithAudits_store]
  · rename_i outcome
    rw [outcome, answerWithAudits_store]

/-- The file identifier of an accepted document is a text the schema accepted. -/
theorem Accepted.fileId (accepted : Accepted cfg env store body documents)
    {document : InboundDocument} (member : document ∈ documents) :
    ∃ text, document.file.fileId = .str text ∧ text ≠ "" ∧ cfg.isUuidV4 text = true := by
  obtain ⟨file, _, _, valid, _, rfl⟩ := accepted.file member
  have key : (required (string cfg.isUuidV4)).admits (file.get? "fileId") = true :=
    object_key valid (by simp [fileUploadKeys])
  obtain ⟨value, found, isText⟩ := admits_required key
  obtain ⟨text, rfl, nonempty, rule⟩ := string_eq_true isText
  exact ⟨text, by simp [inboundDocument, found], nonempty, rule⟩

/-- Every document of an accepted callback gets an outbox entry. -/
theorem Accepted.filter_isComplete (accepted : Accepted cfg env store body documents) :
    (withIds env.documentId documents).filter isComplete = withIds env.documentId documents := by
  apply List.filter_eq_self.mpr
  intro document member
  simp [isComplete, (accepted.document (inbound_of_mem_withIds member)).1]

end Accepted

/-! ## The records of a callback -/

/-- The callback is refused by the schema, and its fail action gets to write a record. -/
def RefusalRecorded (cfg : Config) (env : CallbackEnv) (body : Json) : Prop :=
  callbackPayloadSchema cfg body = false ∧ canConvert (metadataField body "crn") = true ∧
    env.failureInsertStops ≠ some 0

instance (cfg : Config) (env : CallbackEnv) (body : Json) :
    Decidable (RefusalRecorded cfg env body) := by
  unfold RefusalRecorded
  infer_instance

/-- The errors a callback records are those of the schema that refused it, or the message of
a later stage. -/
inductive RecordedErrors (cfg : Config) (env : CallbackEnv) (body : Json) :
    Option (List StatusError) → Prop where
  | none : RecordedErrors cfg env body none
  | schema (refused : RefusalRecorded cfg env body) :
      RecordedErrors cfg env body (some (mapValidationErrors env.validationError))
  | message (message : String) :
      RecordedErrors cfg env body (some (mapValidationErrors (.ofMessage message)))

theorem persistValidationFailureStatus_records {cfg : Config} {env : CallbackEnv} {store : Store}
    {payload : Json} {error : ValidationError} {correlationId : String} {record : StatusRecord}
    (member : record ∈
      (persistValidationFailureStatus cfg env store payload error correlationId).2.status) :
    record ∈ store.status ∨ record.correlationId = correlationId ∧
      record.errors = some (mapValidationErrors error) ∧ env.failureInsertStops ≠ some 0 := by
  have fresh : ∀ record ∈ buildValidationFailureStatusDocuments env.now payload error
      correlationId, record.correlationId = correlationId ∧
        record.errors = some (mapValidationErrors error) := by
    intro record built
    obtain ⟨fileId, _, rfl⟩ := List.mem_map.mp built
    exact ⟨rfl, rfl⟩
  unfold persistValidationFailureStatus at member
  split at member
  · dsimp only at member
    split at member
    · rename_i complete
      refine (List.mem_append.mp member).imp_right fun new => ?_
      exact ⟨(fresh record new).1, (fresh record new).2, by simp [complete]⟩
    · rename_i written stops
      refine (List.mem_append.mp member).imp_right fun new => ?_
      have built := fresh record (List.mem_of_mem_take new)
      refine ⟨built.1, built.2, fun nothing => ?_⟩
      rw [stops, Option.some.injEq] at nothing
      simp [nothing] at new
  · exact Or.inl member

/-- A record after a callback was there before, or is one of the callback's own. -/
theorem uploadCallback_records {cfg : Config} {env : CallbackEnv} {store : Store} {body : Json}
    {record : StatusRecord} (member : record ∈ (uploadCallback cfg env store body).store.status) :
    record ∈ store.status ∨ record.correlationId = callbackCorrelationId cfg env store body ∧
      RecordedErrors cfg env body record.errors := by
  rw [uploadCallback] at member
  split at member
  · rename_i schema
    have request : validatedPayload body = requestPayload cfg body := by
      rw [requestPayload, if_pos schema]
    simp only [callbackHandler, resolveCallbackCorrelation_payload, request] at member
    split at member
    · rename_i message _
      refine (persistValidationFailureStatus_records member).imp_right fun new => ⟨new.1, ?_⟩
      rw [new.2.1]
      exact .message message
    · rename_i valid
      rcases persistMetadataWithOutbox_cases env store schema valid with
        ⟨documents, accepted, same⟩ | ⟨_, same⟩
      · simp only [callbackCorrelationId, handledPayload] at same
        rw [same] at member
        simp only [answerWithAudits_store, commitDocuments] at member
        refine (List.mem_append.mp member).imp_right fun new => ?_
        obtain ⟨document, listed, rfl⟩ := List.mem_map.mp new
        exact ⟨(accepted.document listed).2.2.1, .none⟩
      · simp only [callbackCorrelationId, handledPayload] at same
        split at member
        all_goals
          rename_i outcome
          rw [outcome] at same
          simp only at same
          subst same
          exact Or.inl (by simpa using member)
  · rename_i refused
    have request : requestPayload cfg body = body := if_neg refused
    simp only [callbackFailAction] at member
    split at member
    · rename_i converts
      rw [answerWithAudits_store] at member
      refine (persistValidationFailureStatus_records member).imp_right fun new => ?_
      refine ⟨by rw [new.1, callbackCorrelationId, request], ?_⟩
      rw [new.2.1]
      exact .schema ⟨by simpa using refused, converts, new.2.2⟩
    · exact Or.inl member

end ObjectProcessor
