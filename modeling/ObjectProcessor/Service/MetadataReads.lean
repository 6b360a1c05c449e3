import ObjectProcessor.Service.Origins
import ObjectProcessor.Metadata.Response

/-!
# Reading what callbacks have written

The documents of an accepted payload satisfy the closed schema of the metadata route,
and nothing that happens to a stored document changes what the route shows of it.
-/

namespace ObjectProcessor

open Library Schema

variable {cfg : Config} {system : System}

/-- Only a complete file gets a document, and the schema requires a content type of it. -/
theorem readable_of_formatted {body : Json} {correlationId : String}
    {documents : List InboundDocument} (schema : callbackPayloadSchema cfg body = true)
    (valid : validateCallbackPayload (handledPayload cfg body) = none)
    (formatted : formatInboundMetadata cfg (handledPayload cfg body) correlationId =
      some documents) {document : InboundDocument} (member : document ∈ documents) :
    Readable cfg document := by
  have metadata := metadata_of_formatted schema valid formatted member
  obtain ⟨file, _, _, fileValid, complete, rfl⟩ :=
    file_of_formatted schema valid formatted member
  have fileId : (required (string cfg.isUuidV4)).admits (file.get? "fileId") = true :=
    object_key fileValid (by simp [fileUploadKeys])
  have filename : (required anyString).admits (file.get? "filename") = true :=
    object_key fileValid (by simp [fileUploadKeys])
  have contentType : (required (Schema.valid cfg.cdpUploaderMimeTypes)).admits
      (file.get? "contentType") = true :=
    object_key fileValid (by simp [fileUploadKeys, complete])
  obtain ⟨id, hasId, isUuid⟩ := admits_required fileId
  obtain ⟨mimeType, hasType, isType⟩ := admits_required contentType
  constructor
  · exact metadata
  · simpa [inboundDocument, hasId] using isUuid
  · exact filename
  · simpa [inboundDocument, hasType] using anyString_of_string isType
  · simp [inboundDocument, complete, anyString, string]

/-- What a page shows of a document is what the callback has built. -/
theorem FromCallback.readable {document : InboundDocument} (built : FromCallback cfg document) :
    Readable cfg document := by
  obtain ⟨env, store, body, documents, accepted, inbound, member, _, metadata, file, _⟩ := built
  have readable := readable_of_formatted accepted.schema accepted.valid accepted.formatted member
  constructor
  · rw [metadata]
    exact readable.metadata
  all_goals rw [file]
  · exact readable.fileId
  · exact readable.filename
  · exact readable.contentType
  · exact readable.fileStatus

/-- The answer is the one its schema admits: a page, or that the business has no documents. -/
def MetadataResponse.Conforms (cfg : Config) (stored : List MetadataDocument) (sbi : Int) :
    MetadataResponse → Prop
  | .ok body => metadataSuccessSchema cfg body = true
  | .notFound error =>
      error = { message := noDocumentsFoundError } ∧
        ∀ document ∈ stored, isOfSbi sbi document = false
  | .internalError => False

theorem metadataHandler_conforms {stored : List MetadataDocument}
    (readable : ∀ document ∈ stored, Readable cfg document.toInboundDocument) (sbi : Int)
    {pageSize : Nat} (safe : pageSize ≤ maxSafeInteger) {after : Option String}
    {cursor : Option ObjectId} (converts : toCursor after = some cursor) :
    (metadataHandler stored sbi pageSize after).1.Conforms cfg stored sbi := by
  rw [metadataHandler, converts]
  simp only
  split
  · rename_i page found
    exact MetadataPage.toJson_valid readable safe found
  · rename_i error found
    let visit : PageVisit := ⟨⟨stored, pageSize⟩, cursor, .error error⟩
    have nothing := (notFound_iff error).mp (show getMetadataPageBySbi visit.request.stored sbi
      visit.request.pageSize visit.after = .error error from found)
    exact ⟨nothing.1, nothing.2.2⟩

/-- Whatever callbacks have written, every page of it satisfies the schema of the metadata
route, whichever of the stored documents the read has seen. -/
theorem metadata_route_reads_every_document (reachable : Reachable cfg system)
    {stored : List MetadataDocument} (seen : ∀ document ∈ stored, document ∈ system.store.metadata)
    (settings : PageSettings) (toNumber : String → Option Rat) (sbi : Int) {query : Json}
    (admitted : metadataQuerySchema settings toNumber query = true)
    (representable : query.get? "pageSize" = none →
      settings.metadataSbiPageSize ≤ maxSafeInteger) :
    (metadataRoute settings toNumber stored sbi query).1.Conforms cfg stored sbi ∧
      -- Every document a payload is mapped to can be shown, under any identifier.
      ∀ body correlationId documents, callbackPayloadSchema cfg body = true →
        validateCallbackPayload (handledPayload cfg body) = none →
        formatInboundMetadata cfg (handledPayload cfg body) correlationId = some documents →
          ∀ document ∈ documents, ∀ id,
            let stored : MetadataDocument := { document with id }
            metadataDocumentSchema cfg stored.projected.toJson = true := by
  constructor
  · obtain ⟨cursor, converts⟩ := exists_toCursor admitted
    refine metadataHandler_conforms (fun document member => ?_) sbi
      (queryPageSize_bounds admitted representable).2 converts
    exact (reachable.originated.documents document (seen document member)).readable
  · intro body correlationId documents schema valid formatted document member id
    exact PageDocument.toJson_valid (readable_of_formatted schema valid formatted member)

namespace Sample

def pageSettings : PageSettings where
  metadataSbiPageSize := 100
  metadataSbiMaxPageSize := 200
  positive := by decide

/-- The service after a callback with two files. -/
def twoDocuments : List Action :=
  [.callback (env 1) (body [("document", file fileA), ("statement", file fileB)])]

/-- The first page, a document at a time. -/
def firstPage : Json := .obj [("pageSize", .str "1")]

def readOne (text : String) : Option Rat := if text = "1" then some 1 else none

end Sample

theorem metadata_route_reads_every_document_sample :
    ∃ body, (metadataRoute Sample.pageSettings Sample.readOne (System.after Sample.config
        Sample.twoDocuments (by decide)).store.metadata 105000000 Sample.firstPage).1 = .ok body ∧
      metadataSuccessSchema Sample.config body = true := by
  have admitted : metadataQuerySchema Sample.pageSettings Sample.readOne Sample.firstPage =
      true := by decide
  have conforms := (metadata_route_reads_every_document
    (Reachable.after Sample.config Sample.twoDocuments (by decide)) (fun _ => id)
    Sample.pageSettings Sample.readOne 105000000 admitted (by decide)).1
  cases answer : (metadataRoute Sample.pageSettings Sample.readOne (System.after Sample.config
      Sample.twoDocuments (by decide)).store.metadata 105000000 Sample.firstPage).1 with
  | ok body =>
      rw [answer] at conforms
      exact ⟨body, rfl, conforms⟩
  | notFound error =>
      rw [answer] at conforms
      exact absurd conforms.2 (by decide)
  | internalError =>
      rw [answer] at conforms
      exact conforms.elim

end ObjectProcessor
