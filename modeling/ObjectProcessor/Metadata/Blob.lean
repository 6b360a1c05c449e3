import ObjectProcessor.Callback.Handler
import ObjectProcessor.Metadata.Pages

/-!
# The blob route

A published event links to the route that answers with a presigned address of the file in
S3.  The route looks the document of the file up, signs its S3 reference, and publishes the
event of the read, which cannot spoil the answer.
-/

namespace ObjectProcessor

open Library

/-- What the route is given from outside. -/
structure BlobSettings where
  /-- `baseUrl.v1` -/
  baseUrl : String
  /-- `getSignedUrl`, unless it rejects. -/
  getSignedUrl : DocumentS3 → Option String

/-- A character that a path keeps as it is and that ends no segment. -/
def isSegmentChar (char : Char) : Bool := decide (char ∉ ['/', '?', '#', '%'])

def isSegment (text : String) : Bool := text ≠ "" && text.toList.all isSegmentChar

/-- The parameter of `${baseUrl.v1}/blob/{fileId}`, when the path matches. -/
def blobRouteParam (baseUrl path : String) : Option String :=
  ((path.toList.dropPrefix? (baseUrl ++ "/blob/").toList).map String.ofList).filter isSegment

/-- The projection of a document the handler works with. -/
structure S3ReferenceAndAccounts where
  s3 : DocumentS3
  sbi : Option Json
  crn : Option Json
  deriving DecidableEq

def getS3ReferenceAndAccountsByFileId (stored : List MetadataDocument) (fileId : String) :
    Except NotFoundError S3ReferenceAndAccounts :=
  match stored.find? fun document => document.file.fileId = .str fileId with
  | some document =>
      .ok
        { s3 := document.s3
          sbi := document.metadata.get? "sbi"
          crn := document.metadata.get? "crn" }
  | none => .error { message := noDocumentsFoundError }

inductive BlobResponse where
  /-- 200, with the presigned address. -/
  | ok (url : String)
  /-- 400 -/
  | badRequest
  /-- 404 -/
  | notFound (error : NotFoundError)
  /-- 500 -/
  | internalError
  deriving DecidableEq

/-- The event of a read.  Without a tracing header its publisher draws an identifier. -/
structure BlobAudit where
  correlationid : Option String
  entityid : String
  accounts : AuditAccounts
  deriving DecidableEq

/-- The handler, for a parameter its schema admits.  The accounts of the event are built
before it is published, and an error there is the request's. -/
def blobHandler (settings : BlobSettings) (stored : List MetadataDocument)
    (correlationid : Option String) (fileId : String) : BlobResponse × Option BlobAudit :=
  match getS3ReferenceAndAccountsByFileId stored fileId with
  | .error error => (.notFound error, none)
  | .ok found =>
      match settings.getSignedUrl found.s3, buildAuditAccounts found.sbi found.crn with
      | some url, some accounts => (.ok url, some { correlationid, entityid := fileId, accounts })
      | _, _ => (.internalError, none)

/-- `GET ${baseUrl.v1}/blob/{fileId}`, when the path is one of its paths. -/
def blobRoute (cfg : Config) (settings : BlobSettings) (stored : List MetadataDocument)
    (correlationid : Option String) (path : String) : Option (BlobResponse × Option BlobAudit) :=
  (blobRouteParam settings.baseUrl path).map fun fileId =>
    if cfg.isUuidV4 fileId then blobHandler settings stored correlationid fileId
    else (.badRequest, none)

/-- The path of a segment under the route leads back to the segment. -/
theorem blobRouteParam_append (baseUrl : String) {fileId : String}
    (segment : isSegment fileId = true) :
    blobRouteParam baseUrl (baseUrl ++ ("/blob/" ++ fileId)) = some fileId := by
  have path : (baseUrl ++ ("/blob/" ++ fileId)).toList =
      (baseUrl ++ "/blob/").toList ++ fileId.toList := by simp
  rw [blobRouteParam, path, List.dropPrefix?_append_of_beq _ BEq.rfl]
  simp [segment]

/-- The route hands a canonical identifier to the handler. -/
theorem blobRoute_append {cfg : Config} (settings : BlobSettings) (stored : List MetadataDocument)
    (correlationid : Option String) {fileId : String} (segment : isSegment fileId = true)
    (valid : cfg.isUuidV4 fileId = true) :
    blobRoute cfg settings stored correlationid (settings.baseUrl ++ ("/blob/" ++ fileId)) =
      some (blobHandler settings stored correlationid fileId) := by
  rw [blobRoute, blobRouteParam_append _ segment, Option.map_some, if_pos valid]

theorem getS3Reference_of_stored {stored : List MetadataDocument}
    (unique : UniqueBy MetadataDocument.fileId stored) {document : MetadataDocument}
    (member : document ∈ stored) {fileId : String} (named : document.file.fileId = .str fileId) :
    getS3ReferenceAndAccountsByFileId stored fileId =
      .ok ⟨document.s3, document.metadata.get? "sbi", document.metadata.get? "crn"⟩ := by
  have found : stored.find? (fun document => decide (document.file.fileId = .str fileId)) =
      some document := by
    refine find?_eq_some_of_unique member (decide_eq_true named) fun other stored same => ?_
    exact unique.eq_of_key stored member ((of_decide_eq_true same).trans named.symm)
  rw [getS3ReferenceAndAccountsByFileId, found]

/-- What the lookup finds is the projection of a stored document of the file. -/
theorem stored_of_getS3Reference {stored : List MetadataDocument} {fileId : String}
    {found : S3ReferenceAndAccounts}
    (answered : getS3ReferenceAndAccountsByFileId stored fileId = .ok found) :
    ∃ document ∈ stored, document.file.fileId = .str fileId ∧
      found = ⟨document.s3, document.metadata.get? "sbi", document.metadata.get? "crn"⟩ := by
  rw [getS3ReferenceAndAccountsByFileId] at answered
  split at answered
  · rename_i document isFound
    cases answered
    have named := List.find?_some isFound
    exact ⟨document, List.mem_of_find?_eq_some isFound, of_decide_eq_true named, rfl⟩
  · cases answered

theorem getS3Reference_eq_error {stored : List MetadataDocument} {fileId : String}
    {error : NotFoundError} :
    getS3ReferenceAndAccountsByFileId stored fileId = .error error ↔
      error = ⟨noDocumentsFoundError⟩ ∧
        ∀ document ∈ stored, document.file.fileId ≠ .str fileId := by
  rw [getS3ReferenceAndAccountsByFileId]
  cases found : stored.find? fun document => document.file.fileId = .str fileId with
  | some document =>
      have named := List.find?_some found
      have member := List.mem_of_find?_eq_some found
      simp only [reduceCtorEq, false_iff, not_and]
      exact fun _ absent => absent document member (of_decide_eq_true named)
  | none =>
      rw [List.find?_eq_none] at found
      simp only [decide_eq_true_eq] at found
      simp only [Except.error.injEq]
      exact ⟨fun same => ⟨same.symm, found⟩, fun both => both.1.symm⟩

/-- The event of a read is of a stored document, under its accounts. -/
theorem blobRoute_audit {cfg : Config} {settings : BlobSettings} {stored : List MetadataDocument}
    {correlationid : Option String} {path : String} {response : BlobResponse} {audit : BlobAudit}
    (answered : blobRoute cfg settings stored correlationid path = some (response, some audit)) :
    audit.correlationid = correlationid ∧
      ∃ document ∈ stored, document.file.fileId = .str audit.entityid ∧
        buildAuditAccounts (document.metadata.get? "sbi") (document.metadata.get? "crn") =
          some audit.accounts := by
  obtain ⟨fileId, _, answer⟩ := Option.map_eq_some_iff.mp answered
  split at answer
  · rw [blobHandler] at answer
    split at answer
    · cases answer
    · rename_i reference found
      split at answer
      · rename_i url accounts signed built
        cases answer
        obtain ⟨document, isStored, named, rfl⟩ := stored_of_getS3Reference found
        exact ⟨rfl, document, isStored, named, built⟩
      · cases answer
  · cases answer

/-- The route answers 404 exactly when no stored document is of the file. -/
theorem blobHandler_notFound_iff (settings : BlobSettings) {stored : List MetadataDocument}
    (correlationid : Option String) {fileId : String} :
    blobHandler settings stored correlationid fileId =
        (.notFound ⟨noDocumentsFoundError⟩, none) ↔
      ∀ document ∈ stored, document.file.fileId ≠ .str fileId := by
  rw [blobHandler]
  cases found : getS3ReferenceAndAccountsByFileId stored fileId with
  | error error =>
      obtain ⟨rfl, absent⟩ := getS3Reference_eq_error.mp found
      exact ⟨fun _ => absent, fun _ => rfl⟩
  | ok reference =>
      have isStored : ¬ ∀ document ∈ stored, document.file.fileId ≠ .str fileId := by
        intro absent
        have missing := getS3Reference_eq_error.mpr ⟨rfl, absent⟩
        rw [found] at missing
        cases missing
      refine iff_of_false (fun answer => ?_) isStored
      have response := congrArg Prod.fst answer
      revert response
      simp only
      split <;> simp

end ObjectProcessor
