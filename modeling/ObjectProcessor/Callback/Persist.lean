import ObjectProcessor.Callback.Correlation
import ObjectProcessor.Status.Record
import ObjectProcessor.Outbox.Entry

/-!
# Persisting a callback

An accepted callback writes its status records, documents and outbox entries in
one transaction.  A duplicate file makes the transaction fail as a whole, and the
first file of the payload then decides the answer.  The records of a rejected
callback are written outside a transaction.
-/

namespace ObjectProcessor

open Library

structure Store where
  sessions : List Session
  metadata : List MetadataDocument
  status : List StatusRecord
  outbox : List OutboxEntry
  deriving DecidableEq

/-- What a callback meets outside this code: the clock, generated identifiers,
and how each database call ends. -/
structure CallbackEnv where
  /-- How many of the stored sessions the journey lookup sees; `none` when it fails. -/
  sessionsSeen : Option Nat
  /-- What `randomUUID` returns. -/
  generated : String
  /-- The error the schema reports for a body it refuses. -/
  validationError : ValidationError
  now : Time
  /-- The identifiers the driver generates, by position in the batch. -/
  documentId : Nat → ObjectId
  entryId : Nat → ObjectId
  transactionFails : Bool
  /-- Whether the lookup on the duplicate path fails. -/
  duplicateLookupFails : Bool
  /-- Where the insertion of failure records stops with an error, if it does. -/
  failureInsertStops : Option Nat

/-- How `persistMetadataWithOutbox` settles. -/
inductive PersistResult where
  | inserted (insertedIds : List ObjectId)
  | duplicate (correlationId : String)
  | rejected
  deriving DecidableEq

def MetadataDocument.fileId (document : MetadataDocument) : Json := document.file.fileId

/-- Some file of the batch is stored already, or occurs twice in the batch: the
unique index refuses the insertion with code 11000. -/
def hasDuplicateKey (metadata : List MetadataDocument) (documents : List InboundDocument) : Bool :=
  !(documents.map fun document => document.file.fileId).Nodup ||
    documents.any fun document => metadata.any fun stored => stored.fileId = document.file.fileId

/-- The store after the transaction has committed. -/
def commitDocuments (env : CallbackEnv) (store : Store) (documents : List InboundDocument) :
    Store :=
  let stored := withIds env.documentId documents
  { store with
    status := store.status ++ buildValidatedStatusDocuments env.now documents
    metadata := store.metadata ++ stored
    outbox := store.outbox ++ createOutboxEntries env.now env.entryId stored }

/-- `fileIds` of the duplicate path, over the raw form. -/
def payloadFileIds (payload : Json) : List Json :=
  ((flattenFormValues (payload.get? "form")).filter isFileEntry).filterMap (Json.get? · "fileId")

def getMetadataByFileId (metadata : List MetadataDocument) (fileId : Json) :
    Option MetadataDocument :=
  metadata.find? fun document => document.fileId = fileId

/-- The duplicate path: only the first file of the payload is looked up. -/
def resolveDuplicate (env : CallbackEnv) (store : Store) (payload : Json) : PersistResult :=
  match payloadFileIds payload with
  | [] => .rejected
  | first :: _ =>
      if env.duplicateLookupFails then .rejected
      else
        match getMetadataByFileId store.metadata first with
        | none => .rejected
        | some existing => .duplicate existing.messaging.correlationId

def persistMetadataWithOutbox (cfg : Config) (env : CallbackEnv) (store : Store) (payload : Json)
    (correlationId : String) : PersistResult × Store :=
  match formatInboundMetadata cfg payload correlationId with
  | none => (.rejected, store)
  -- The driver refuses to insert an empty batch.
  | some [] => (.rejected, store)
  | some documents =>
      if env.transactionFails then (.rejected, store)
      else if hasDuplicateKey store.metadata documents then
        (resolveDuplicate env store payload, store)
      else
        (.inserted ((List.range documents.length).map env.documentId),
          commitDocuments env store documents)

/-- `persistValidationFailureStatus`: whether it resolves, and the store
afterwards. -/
def persistValidationFailureStatus (cfg : Config) (env : CallbackEnv) (store : Store)
    (payload : Json) (validationError : ValidationError) (correlationId : String) : Bool × Store :=
  if assertCorrelationId cfg correlationId then
    let records :=
      buildValidationFailureStatusDocuments env.now payload validationError correlationId
    match env.failureInsertStops with
    | none => (true, { store with status := store.status ++ records })
    | some written => (false, { store with status := store.status ++ records.take written })
  else
    (false, store)

theorem hasDuplicateKey_eq_false {metadata : List MetadataDocument}
    {documents : List InboundDocument} :
    hasDuplicateKey metadata documents = false ↔
      (documents.map fun document => document.file.fileId).Nodup ∧
        ∀ document ∈ documents, ∀ stored ∈ metadata, stored.fileId ≠ document.file.fileId := by
  simp [hasDuplicateKey]

end ObjectProcessor
