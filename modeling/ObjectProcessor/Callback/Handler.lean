import ObjectProcessor.Callback.Persist
import ObjectProcessor.Callback.Validation
import ObjectProcessor.Library.Uuid

/-!
# The callback endpoint

A body the schema refuses goes to the fail action, any other to the handler.
Both record a validation failure in the same way; only the handler persists
documents.  Converting a value to text can throw, and where it is not caught the
request ends in an internal error with whatever was written so far.
-/

namespace ObjectProcessor

structure AuditAccounts where
  sbi : Option String
  crn : Option String
  deriving DecidableEq, Repr

/-- An audit event the endpoint emits for one file. -/
structure AuditEvent where
  correlationId : String
  action : String
  entityId : String
  accounts : AuditAccounts
  status : String
  reason : String
  deriving DecidableEq, Repr

inductive CallbackResponse where
  /-- 201 `Metadata created` -/
  | metadataCreated (count : Nat) (ids : List String)
  /-- 200 `Duplicate callback ignored` -/
  | duplicateIgnored
  /-- 201 `Validation failure persisted` -/
  | validationFailurePersisted
  /-- 500 -/
  | internalError
  deriving DecidableEq, Repr

structure CallbackResult where
  store : Store
  response : CallbackResponse
  audits : List AuditEvent
  deriving DecidableEq

/-- The customer reference an audit event may carry. -/
def validCrn? : Option Json → Option Nat
  | some (.num (.finite value)) =>
      if value.den = 1 && schemaConsts.CRN_MIN ≤ value.num && value.num ≤ schemaConsts.CRN_MAX then
        some value.num.toNat
      else
        none
  | some (.str text) =>
      if text ≠ "" && text.toList.all Char.isDigit then
        let value := text.toList.foldl (fun acc digit => 10 * acc + (digit.toNat - 48)) 0
        if schemaConsts.CRN_MIN ≤ value && value ≤ schemaConsts.CRN_MAX then some value else none
      else
        none
  | _ => none

/-- Whether `String(value)` returns.  Absent and empty values are not converted. -/
def canConvert (value : Option Json) : Bool := value.all Json.convertsToString

/-- `buildAuditAccounts`, which throws when the business identifier does not
convert to a text. -/
def buildAuditAccounts (sbi crn : Option Json) : Option AuditAccounts :=
  if canConvert sbi then
    some
      { sbi :=
          match sbi with
          | none | some .null | some (.str "") => none
          | some value => some value.text
        crn := (validCrn? crn).map toString }
  else
    none

/-- One audit event for every file of the body, unless building them throws. -/
def auditFiles (body : Json) (correlationId action status reason : String) :
    Option (List AuditEvent) :=
  (buildAuditAccounts (metadataField body "sbi") (metadataField body "crn")).map fun accounts =>
    (extractFileIdsFromPayload body).map fun fileId =>
      { correlationId, action, entityId := fileId, accounts, status, reason }

/-- Answer with the events emitted, or with an internal error when building them
throws. -/
def answerWithAudits (store : Store) (response : CallbackResponse)
    (audits : Option (List AuditEvent)) : CallbackResult :=
  match audits with
  | some events => { store, response, audits := events }
  | none => { store, response := .internalError, audits := [] }

/-- The fail action of the route, for a body the schema refuses.  The log line
is built first and masks the customer reference, which it converts to a text. -/
def callbackFailAction (cfg : Config) (env : CallbackEnv) (store : Store) (body : Json) :
    CallbackResult :=
  let lookup := env.sessionsSeen.map store.sessions.take
  let (correlationId, payload) := resolveCallbackCorrelation cfg lookup env.generated body
  if canConvert (metadataField body "crn") then
    let persisted :=
      persistValidationFailureStatus cfg env store payload env.validationError correlationId
    answerWithAudits persisted.2 .validationFailurePersisted
      (auditFiles body correlationId "failed" "failure" "payload_validation_failure")
  else
    { store, response := .internalError, audits := [] }

/-- The handler of the route, for a validated payload. -/
def callbackHandler (cfg : Config) (env : CallbackEnv) (store : Store) (body : Json) :
    CallbackResult :=
  let lookup := env.sessionsSeen.map store.sessions.take
  let (correlationId, payload) := resolveCallbackCorrelation cfg lookup env.generated body
  match validateCallbackPayload payload with
  | some message =>
      let persisted := persistValidationFailureStatus cfg env store payload
        (.ofMessage message) correlationId
      { store := persisted.2, response := .validationFailurePersisted, audits := [] }
  | none =>
      match persistMetadataWithOutbox cfg env store payload correlationId with
      | (.duplicate _, after) => { store := after, response := .duplicateIgnored, audits := [] }
      | (.inserted ids, after) =>
          answerWithAudits after (.metadataCreated ids.length (ids.map ObjectId.toHexString))
            (auditFiles body correlationId "created" "success" "callback_successful")
      | (.rejected, after) =>
          answerWithAudits after .internalError
            (auditFiles body correlationId "failed" "failure" "callback_processing_failure")

/-- `POST /callback` -/
def uploadCallback (cfg : Config) (env : CallbackEnv) (store : Store) (body : Json) :
    CallbackResult :=
  if callbackPayloadSchema cfg body then callbackHandler cfg env store (validatedPayload body)
  else callbackFailAction cfg env store body

/-! ## A sample configuration and payload -/

namespace Sample

def config : Config where
  outboxMaxAttempts := 3
  outboxClaimLeaseMs := 300000
  outboxQueryLimit := 100
  outboxSentTtlSeconds := 604800
  statusQueryLimit := 100
  cdpUploaderDocumentTypes := ["CS_Agreement_Evidence"]
  cdpUploaderMimeTypes := ["application/pdf"]
  publicApiBaseUrl := "http://localhost:3004"
  isUuidV4 := Library.isLenientUuidV4

def objectId (value : Nat) : ObjectId := ⟨value % 16 ^ 24, Nat.mod_lt _ (by decide)⟩

/-- The file identifiers used below. -/
def fileA : String := "9fcaabe5-77ec-44db-8356-3a6e8dc51b13"
def fileB : String := "550e8400-e29b-41d4-a716-446655440000"
def correlationId : String := "66f9c1e2-a3b4-4c5d-a6e7-f80912345678"

/-- A complete file. -/
def file (fileId : String) : Json :=
  .obj
    [ ("fileId", .str fileId), ("filename", .str "document.pdf"),
      ("contentType", .str "application/pdf"), ("fileStatus", .str "complete"),
      ("contentLength", .int 11264), ("checksumSha256", .str "bng5jOVC6TxEgwTUlX4DikFtDEYE="),
      ("s3Key", .str "scanned/document"), ("s3Bucket", .str "bucket") ]

def metadata (submissionId : String) : Json :=
  .obj
    [ ("sbi", .int 105000000), ("crn", .int 1050000000), ("frn", .int 1102658375),
      ("submissionId", .str submissionId), ("type", .str "CS_Agreement_Evidence"),
      ("reference", .str "user entered reference"), ("service", .str "fcp-sfd-frontend"),
      ("uosr", .str "105000000_1733826312") ]

/-- The body of a callback for a ready upload with the given form. -/
def body (form : List (String × Json)) : Json :=
  .obj
    [ ("uploadStatus", .str "ready"), ("metadata", metadata "1733826312"), ("form", .obj form),
      ("numberOfRejectedFiles", .int 0) ]

/-- Nothing fails; identifiers are numbered from the given one. -/
def env (first : Nat) : CallbackEnv where
  sessionsSeen := some 0
  generated := correlationId
  validationError := { message := some "invalid", details := none }
  now := 0
  documentId index := objectId (first + index)
  entryId index := objectId (first + 100 + index)
  transactionFails := false
  duplicateLookupFails := false
  failureInsertStops := none

/-- The configuration with a single attempt. -/
def oneAttempt : Config := { config with outboxMaxAttempts := 1 }

/-! ### An upload that was initiated -/

def uploadId : Json := .str "upload"

/-- The journey identifier minted for the upload. -/
def journeyId : String := "2f1c0f4e-9a3b-4d56-8e7f-0123456789ab"

def session : Session where
  uploadId
  journeyId := some journeyId
  metadata := metadata "1733826312"
  timestamp := 0

/-- The body of a callback that echoes the journey identifier. -/
def journeyBody (uploadStatus : String) : Json :=
  .obj
    [ ("uploadStatus", .str uploadStatus),
      ("metadata", .obj ((journeyIdKey, .str journeyId) :: (metadata "1733826312").entries)),
      ("form", .obj [("document", file fileA)]) ]

/-- The lookup of the callback sees the session. -/
def journeyEnv (first : Nat) : CallbackEnv := { env first with sessionsSeen := some 1 }

end Sample

end ObjectProcessor
