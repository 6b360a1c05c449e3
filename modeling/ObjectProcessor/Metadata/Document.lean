import ObjectProcessor.Callback.Form
import ObjectProcessor.Config
import ObjectProcessor.Store.ObjectId

/-!
# Metadata documents

One document is built for every file that survives the normalisation of the
form.  A field of the file that is absent stays absent in the document.
-/

namespace ObjectProcessor

open Library

/-- `document.file`. -/
structure DocumentFile where
  fileId : Json
  filename : Option Json
  contentType : Option Json
  fileStatus : Option Json
  deriving DecidableEq

/-- `document.s3`. -/
structure DocumentS3 where
  key : Option Json
  bucket : Option Json
  deriving DecidableEq

/-- `document.messaging`. -/
structure DocumentMessaging where
  publishedAt : Option Time
  correlationId : String
  filesInBatch : Nat
  deriving DecidableEq

/-- A document as it is built, before the driver adds an identifier. -/
structure InboundDocument where
  raw : Json
  metadata : Json
  file : DocumentFile
  s3 : DocumentS3
  messaging : DocumentMessaging
  deriving DecidableEq

/-- A document of the metadata collection. -/
structure MetadataDocument extends InboundDocument where
  id : ObjectId
  deriving DecidableEq

/-- `assertCorrelationId`: whether the guard lets the identifier through. -/
def assertCorrelationId (cfg : Config) (correlationId : String) : Bool :=
  correlationId ≠ "" && cfg.isUuidV4 correlationId

/-- The document built from one file of the form. -/
def inboundDocument (payload : Json) (correlationId : String) (filesInBatch : Nat)
    (formUpload : Json) : InboundDocument where
  raw := .obj (assignAll
    ((payload.get? "uploadStatus").toList.map (Prod.mk "uploadStatus") ++
      (payload.get? "numberOfRejectedFiles").toList.map (Prod.mk "numberOfRejectedFiles") ++
      formUpload.entries))
  metadata := (payload.get? "metadata").getD .null
  file :=
    { fileId := (formUpload.get? "fileId").getD .null
      filename := formUpload.get? "filename"
      contentType := formUpload.get? "contentType"
      fileStatus := formUpload.get? "fileStatus" }
  s3 :=
    { key := formUpload.get? "s3Key"
      bucket := formUpload.get? "s3Bucket" }
  messaging :=
    { publishedAt := none
      correlationId
      filesInBatch }

/-- `formatInboundMetadata`, which throws when the identifier is refused. -/
def formatInboundMetadata (cfg : Config) (payload : Json) (correlationId : String) :
    Option (List InboundDocument) :=
  if assertCorrelationId cfg correlationId then
    let filteredFormData := normalisedFiles (payload.get? "form")
    some (filteredFormData.map
      (inboundDocument payload correlationId filteredFormData.length))
  else
    none

/-- The identifiers of the files that survive the normalisation of the form. -/
def normalisedFileIds (payload : Json) : List Json :=
  (normalisedFiles (payload.get? "form")).map fun file => (file.get? "fileId").getD .null

/-- The documents carry the identifiers of the normalised files. -/
theorem map_fileId_of_formatted {cfg : Config} {payload : Json} {correlationId : String}
    {documents : List InboundDocument}
    (formatted : formatInboundMetadata cfg payload correlationId = some documents) :
    documents.map (fun document => document.file.fileId) = normalisedFileIds payload := by
  unfold formatInboundMetadata at formatted
  split at formatted
  · cases formatted
    rw [List.map_map, normalisedFileIds]
    rfl
  · cases formatted

/-- `insertMany` gives every document an identifier of its own. -/
def withIds (documentId : Nat → ObjectId) (documents : List InboundDocument) :
    List MetadataDocument :=
  documents.zipIdx.map fun document =>
    { document.1 with id := documentId document.2 }

theorem map_withIds {β : Type*} (read : InboundDocument → β) (documentId : Nat → ObjectId)
    (documents : List InboundDocument) :
    (withIds documentId documents).map (fun document => read document.toInboundDocument) =
      documents.map read := by
  rw [withIds, List.map_map]
  conv_rhs => rw [← List.zipIdx_map_fst 0 documents, List.map_map]
  rfl

/-- A stored document is one of the documents that were built. -/
theorem inbound_of_mem_withIds {documentId : Nat → ObjectId} {documents : List InboundDocument}
    {document : MetadataDocument} (member : document ∈ withIds documentId documents) :
    document.toInboundDocument ∈ documents := by
  rw [← List.map_id documents, ← map_withIds id documentId documents]
  exact List.mem_map_of_mem member

theorem map_id_withIds (documentId : Nat → ObjectId) (documents : List InboundDocument) :
    (withIds documentId documents).map MetadataDocument.id =
      (List.range documents.length).map documentId := by
  rw [withIds, List.map_map, List.range_eq_range', ← List.zipIdx_map_snd 0 documents,
    List.map_map]
  rfl

@[simp]
theorem length_withIds (documentId : Nat → ObjectId) (documents : List InboundDocument) :
    (withIds documentId documents).length = documents.length := by
  simp [withIds]

end ObjectProcessor
