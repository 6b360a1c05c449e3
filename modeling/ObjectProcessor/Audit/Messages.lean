import Mathlib.Data.List.Perm.Subperm
import ObjectProcessor.Audit.SendAuditEvent
import ObjectProcessor.Callback.AllOrNothing
import ObjectProcessor.Callback.FormFidelity
import ObjectProcessor.Metadata.Blob
import ObjectProcessor.Metadata.Response
import ObjectProcessor.Service.PollRun

/-!
# The events of the service

What each route and the outbox give to `sendAuditEvent`.  A callback names the files of its
body as created when it has committed them, and as failed otherwise.
-/

namespace ObjectProcessor

open Library

def documentEntity (action : String) (entityid : Option Json) : AuditEntity where
  entity := "document"
  action
  entityid

/-- The event of a callback, for one file. -/
def AuditEvent.message (event : AuditEvent) : AuditMessage where
  correlationid := some event.correlationId
  security := none
  entities := [documentEntity event.action (some (.str event.entityId))]
  accounts := event.accounts
  status := event.status
  details := [("reason", .str event.reason)]

/-- The event of a page of metadata, under the tracing header of the request. -/
def ReadAudit.message (correlationid : Option String) (event : ReadAudit) : AuditMessage where
  correlationid
  security := none
  entities := event.entities.map (documentEntity "read")
  accounts := { sbi := some event.sbi, crn := none }
  status := "success"
  details := [("count", .int event.count), ("pageSize", .int event.pageSize)]

def BlobAudit.message (event : BlobAudit) : AuditMessage where
  correlationid := event.correlationid
  security := none
  entities := [documentEntity "read" (some (.str event.entityid))]
  accounts := event.accounts
  status := "success"
  details := []

def FailureAudit.message (event : FailureAudit) : AuditMessage where
  correlationid := some event.correlationId
  security := none
  entities := [documentEntity "failed" (some (.str event.entityId))]
  accounts := event.accounts
  status := "failure"
  details := ("reason", .str event.reason) ::
    (event.code.toList.map fun code => ("code", .str code)) ++ [("attempts", .int event.attempts)]

/-! ## Rejected requests -/

/-- A request that is answered with 401. -/
structure AuthRejection where
  method : String
  path : String
  /-- The message of the answer. -/
  message : String

/-- `request.params.fileId` when the route is that of blobs. -/
def AuthRejection.fileId (baseUrl : String) (rejection : AuthRejection) : Option String :=
  if rejection.method ∈ ["get", "head"] then blobRouteParam baseUrl rejection.path else none

/-- The parameter has not been validated yet, and is named only if it is a UUID. -/
def buildAuthFailureEntity (cfg : Config) (fileId : Option String) (correlationId : String) :
    AuditEntity :=
  match fileId.filter fun fileId => fileId ≠ "" && cfg.isUuidV4 fileId with
  | some fileId => documentEntity "failed" (some (.str fileId))
  | none => { entity := "request", action := "failed", entityid := some (.str correlationId) }

/-- The event of a rejected request; `generated` is what `randomUUID` returns. -/
def authFailureMessage (cfg : Config) (baseUrl : String) (requestId : Option String)
    (generated : String) (rejection : AuthRejection) : AuditMessage :=
  let correlationId := requestId.getD generated
  { correlationid := some correlationId
    security := some
      { pmccode := "AUTH"
        priority := 1
        message := (firstText [some rejection.message]).getD "authentication_failed" }
    entities := [buildAuthFailureEntity cfg (rejection.fileId baseUrl) correlationId]
    accounts := { sbi := none, crn := none }
    status := "failure"
    details := [("path", .str rejection.path), ("method", .str rejection.method)] }

/-! ## What an event names -/

/-- The identifiers an event names under an action. -/
def AuditMessage.named (action : String) (message : AuditMessage) : List Json :=
  (message.entities.filter fun entity => entity.action = action).filterMap AuditEntity.entityid

@[simp]
theorem named_message (event : AuditEvent) (action : String) :
    event.message.named action = if event.action = action then [.str event.entityId] else [] := by
  by_cases same : event.action = action <;>
    simp [AuditMessage.named, AuditEvent.message, documentEntity, same]

/-- The event says that the document was created. -/
structure AuditMessage.Creates (message : AuditMessage) (document : InboundDocument) : Prop where
  entities : message.entities = [documentEntity "created" (some document.file.fileId)]
  correlationid : message.correlationid = some document.messaging.correlationId
  accounts : buildAuditAccounts (document.metadata.get? "sbi") (document.metadata.get? "crn") =
    some message.accounts

theorem AuditMessage.Creates.named {message : AuditMessage} {document : InboundDocument}
    (creates : message.Creates document) :
    message.named "created" = [document.file.fileId] := by
  simp [AuditMessage.named, creates.entities, documentEntity]

/-! ## The events of a callback -/

section Callback

variable {cfg : Config} {env : CallbackEnv} {store : Store} {body : Json}

/-- The events a committed callback sends. -/
def createdEvents (cfg : Config) (env : CallbackEnv) (store : Store) (body : Json) :
    List AuditEvent :=
  (auditFiles (validatedPayload body) (callbackCorrelationId cfg env store body) "created"
    "success" "callback_successful").getD []

/-- The accounts are those of some identifiers. -/
def Attributed (accounts : AuditAccounts) : Prop :=
  ∃ sbi crn, buildAuditAccounts sbi crn = some accounts

theorem sbi_of_buildAuditAccounts {sbi : Int} {crn : Option Json} {accounts : AuditAccounts}
    (built : buildAuditAccounts (some (.int sbi)) crn = some accounts) :
    accounts.sbi = some (Json.int sbi).text := by
  cases built
  rfl

/-- Every other callback sends events of a failure, or none. -/
structure OnlyFailures (correlationId : String) (events : List AuditEvent) : Prop where
  failed : ∀ event ∈ events, event.action = "failed"
  correlated : ∀ event ∈ events, event.correlationId = correlationId
  attributed : ∀ event ∈ events, Attributed event.accounts

theorem onlyFailures_nil (correlationId : String) : OnlyFailures correlationId [] :=
  ⟨by simp, by simp, by simp⟩

theorem onlyFailures_auditFiles (body : Json) (correlationId reason : String) (store : Store)
    (response : CallbackResponse) :
    OnlyFailures correlationId (answerWithAudits store response
      (auditFiles body correlationId "failed" "failure" reason)).audits := by
  unfold auditFiles
  cases built : buildAuditAccounts (metadataField body "sbi") (metadataField body "crn") with
  | none => exact onlyFailures_nil correlationId
  | some accounts =>
      have sent : ∀ event ∈ (extractFileIdsFromPayload body).map (fun fileId => (
          { correlationId
            action := "failed"
            entityId := fileId
            accounts
            status := "failure"
            reason } : AuditEvent)),
          event.action = "failed" ∧ event.correlationId = correlationId ∧
            event.accounts = accounts := by
        intro event member
        obtain ⟨fileId, _, rfl⟩ := List.mem_map.mp member
        exact ⟨rfl, rfl, rfl⟩
      exact ⟨fun event member => (sent event member).1, fun event member => (sent event member).2.1,
        fun event member => ⟨_, _, (sent event member).2.2 ▸ built⟩⟩

/-- Recording a failure writes neither documents nor entries. -/
theorem persistValidationFailureStatus_keeps (payload : Json) (error : ValidationError)
    (correlationId : String) :
    (persistValidationFailureStatus cfg env store payload error correlationId).2.metadata =
        store.metadata ∧
      (persistValidationFailureStatus cfg env store payload error correlationId).2.outbox =
        store.outbox := by
  unfold persistValidationFailureStatus
  split
  · dsimp only
    split <;> exact ⟨rfl, rfl⟩
  · exact ⟨rfl, rfl⟩

/-- The business identifier of an accepted body is attributed. -/
theorem auditFiles_of_schema (schema : callbackPayloadSchema cfg body = true)
    (correlationId action status reason : String) :
    ∃ events, auditFiles (validatedPayload body) correlationId action status reason =
      some events := by
  unfold auditFiles buildAuditAccounts
  rw [if_pos (canConvert_sbi schema)]
  exact ⟨_, rfl⟩

variable (cfg env store body) in
/-- A callback commits documents and names the files of its body as created, or commits
none and names failures at most. -/
theorem uploadCallback_audits :
    (∃ documents, Accepted cfg env store body documents ∧
        (uploadCallback cfg env store body).store = commitDocuments env store documents ∧
        (uploadCallback cfg env store body).audits = createdEvents cfg env store body) ∨
      ((uploadCallback cfg env store body).store.metadata = store.metadata ∧
        (uploadCallback cfg env store body).store.outbox = store.outbox ∧
        OnlyFailures (callbackCorrelationId cfg env store body)
          (uploadCallback cfg env store body).audits) := by
  by_cases schema : callbackPayloadSchema cfg body = true
  · have request : validatedPayload body = requestPayload cfg body := by
      rw [requestPayload, if_pos schema]
    rw [uploadCallback, if_pos schema, callbackHandler]
    simp only [resolveCallbackCorrelation_payload, request]
    split
    · exact Or.inr ⟨(persistValidationFailureStatus_keeps ..).1,
        (persistValidationFailureStatus_keeps ..).2, onlyFailures_nil _⟩
    · rename_i valid
      have outcome := persistMetadataWithOutbox_cases env store schema valid
      simp only [callbackCorrelationId, handledPayload] at outcome
      rcases outcome with ⟨documents, accepted, same⟩ | ⟨notInserted, same⟩
      · refine Or.inl ⟨documents, accepted, ?_⟩
        obtain ⟨events, sent⟩ := auditFiles_of_schema schema
          (callbackCorrelationId cfg env store body) "created" "success" "callback_successful"
        rw [createdEvents, sent]
        rw [request, callbackCorrelationId] at sent
        simp only [same, sent, answerWithAudits, Option.getD_some, and_self]
      · refine Or.inr ?_
        split
        · rename_i found
          rw [found] at same
          cases same
          exact ⟨rfl, rfl, onlyFailures_nil _⟩
        · rename_i found
          rw [found] at notInserted
          exact absurd rfl (notInserted _)
        · rename_i found
          rw [found] at same
          cases same
          rw [answerWithAudits_store]
          exact ⟨rfl, rfl, onlyFailures_auditFiles ..⟩
  · have request : requestPayload cfg body = body := if_neg schema
    rw [uploadCallback, if_neg schema, callbackFailAction]
    refine Or.inr ?_
    dsimp only
    split
    · rw [answerWithAudits_store, callbackCorrelationId, request]
      exact ⟨(persistValidationFailureStatus_keeps ..).1,
        (persistValidationFailureStatus_keeps ..).2, onlyFailures_auditFiles ..⟩
    · exact ⟨rfl, rfl, onlyFailures_nil _⟩

/-! ### The events of a commit -/

variable {documents : List InboundDocument}

/-- What is read of the form is read of the body. -/
theorem extractFileIds_validatedPayload (schema : callbackPayloadSchema cfg body = true) :
    (extractFileIdsFromPayload (validatedPayload body)).map Json.str =
      ((formAssignments body).map Prod.snd).filterMap fileIdOf := by
  rw [← extractFileIds_eq schema, extractFileIdsFromPayload, extractFileIdsFromPayload,
    handledPayload_form schema, validatedPayload_get? body (by decide)]

/-- The events of a commit, one for each file of the body. -/
theorem Accepted.createdEvents_eq (accepted : Accepted cfg env store body documents) :
    ∃ accounts,
      buildAuditAccounts (metadataField body "sbi") (metadataField body "crn") = some accounts ∧
        createdEvents cfg env store body =
          (extractFileIdsFromPayload (validatedPayload body)).map fun fileId =>
            { correlationId := callbackCorrelationId cfg env store body
              action := "created"
              entityId := fileId
              accounts
              status := "success"
              reason := "callback_successful" } := by
  have field (name : String) : metadataField (validatedPayload body) name =
      metadataField body name := by
    rw [metadataField, metadataField, validatedPayload_get? body (by decide)]
  have converts := canConvert_sbi accepted.schema
  rw [field] at converts
  obtain ⟨accounts, built⟩ : ∃ accounts,
      buildAuditAccounts (metadataField body "sbi") (metadataField body "crn") = some accounts :=
    ⟨_, if_pos converts⟩
  refine ⟨accounts, built, ?_⟩
  rw [createdEvents, auditFiles, field, field, built]
  rfl

theorem Accepted.createdIds (accepted : Accepted cfg env store body documents) :
    ((createdEvents cfg env store body).map AuditEvent.message).flatMap
        (AuditMessage.named "created") =
      ((formAssignments body).map Prod.snd).filterMap fileIdOf := by
  obtain ⟨accounts, _, same⟩ := accepted.createdEvents_eq
  rw [← extractFileIds_validatedPayload accepted.schema, same, List.map_map, List.flatMap_map]
  induction extractFileIdsFromPayload (validatedPayload body) with
  | nil => rfl
  | cons fileId rest ih => simpa using ih

/-- Every document of a commit is named as created. -/
theorem Accepted.created (accepted : Accepted cfg env store body documents)
    {document : InboundDocument} (member : document ∈ documents) :
    ∃ event ∈ createdEvents cfg env store body, event.message.Creates document := by
  obtain ⟨accounts, built, same⟩ := accepted.createdEvents_eq
  obtain ⟨file, inForm, isFile, _, _, isDocument⟩ := accepted.file member
  obtain ⟨text, named, _⟩ := accepted.fileId member
  obtain ⟨metadata, found, fields⟩ := handledPayload_metadata accepted.schema
  have listed : Json.str text ∈
      (extractFileIdsFromPayload (validatedPayload body)).map Json.str := by
    rw [extractFileIds_validatedPayload accepted.schema, ← formAssignments_values accepted.schema]
    obtain ⟨fileId, here⟩ := Option.isSome_iff_exists.mp ((fileIdOf_isSome file).trans isFile)
    have value : file.get? "fileId" = some fileId := by rwa [fileIdOf, if_pos isFile] at here
    have isText : fileId = .str text := by
      rw [isDocument] at named
      simpa [inboundDocument, value] using named
    exact List.mem_filterMap.mpr ⟨file, inForm, isText ▸ here⟩
  obtain ⟨fileId, isListed, sameText⟩ := List.mem_map.mp listed
  cases sameText
  refine ⟨_, same ▸ List.mem_map_of_mem isListed, ?_⟩
  have metadataOf : document.metadata = metadata := by
    rw [isDocument]
    simp [inboundDocument, found]
  constructor
  case entities => rw [named]; rfl
  case correlationid => rw [(accepted.document member).2.2.1]; rfl
  case accounts =>
    rw [metadataOf, fields "sbi" (by decide) (by decide), fields "crn" (by decide) (by decide)]
    exact built

/-- A commit names at least as many files as it stores, and exactly as many when the
normalisation of the form has overwritten none. -/
theorem Accepted.createdIds_length (accepted : Accepted cfg env store body documents) :
    documents.length ≤ (((formAssignments body).map Prod.snd).filterMap fileIdOf).length ∧
      (documents.length = (((formAssignments body).map Prod.snd).filterMap fileIdOf).length ↔
        NoFileOverwritten (formAssignments body)) := by
  obtain ⟨fields, found, _⟩ := accepted_form accepted.schema
  have built : documents.map (fun document => document.file.fileId) = normalisedFileIds body := by
    rw [map_fileId_of_formatted accepted.formatted, normalisedFileIds,
      handledPayload_form accepted.schema, normalisedFileIds]
  have lengths := congrArg List.length built
  rw [List.length_map] at lengths
  refine ⟨?_, by rw [lengths, length_normalisedFileIds_iff found rfl]⟩
  have named : documents.map (fun document => document.file.fileId) ⊆
      ((formAssignments body).map Prod.snd).filterMap fileIdOf := by
    intro fileId member
    obtain ⟨document, isDocument, rfl⟩ := List.mem_map.mp member
    obtain ⟨event, sent, creates⟩ := accepted.created isDocument
    rw [← accepted.createdIds]
    exact List.mem_flatMap.mpr ⟨_, List.mem_map_of_mem sent, by simp [creates.named]⟩
  have distinct : (documents.map fun document => document.file.fileId).Nodup := accepted.distinct
  simpa using (distinct.subperm named).length_le

end Callback

end ObjectProcessor
