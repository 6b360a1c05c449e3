import ObjectProcessor.Library.Uri
import ObjectProcessor.Callback.Effect
import ObjectProcessor.Outbox.Message

/-!
# The contract of the published event

The payload schema of `documentUploaded`, and the messages built from accepted
callbacks that meet it.  Numbers and enumerations agree on both sides; the callback
admits longer titles and file names and other identifiers than the contract.
-/

namespace ObjectProcessor

open Library

/-! ## `components.schemas` -/

namespace Contract

def crn : Json → Bool := JsonSchema.number 1050000000 9999999999

def contentType : Json → Bool := JsonSchema.text 1 127 fun _ => true

/-- `^[A-Za-z0-9_ -]+$` -/
def isCaseType (text : String) : Bool :=
  !text.isEmpty && text.toList.all fun char => isAlphanumeric char || char ∈ ['_', ' ', '-']

def crmCaseType : Json → Bool := JsonSchema.text 1 100 isCaseType

def title : Json → Bool := JsonSchema.text 1 200 fun _ => true

def crm : Json → Bool :=
  JsonSchema.object ["caseType", "title"] false [("caseType", crmCaseType), ("title", title)]

def correlationId : Json → Bool := JsonSchema.format isUuid

def datacontenttype : Json → Bool := JsonSchema.format fun _ => true

def fileId : Json → Bool := JsonSchema.format isUuid

def fileName : Json → Bool := JsonSchema.text 1 255 fun _ => true

def url : Json → Bool := JsonSchema.format isUri

def file : Json → Bool :=
  JsonSchema.object ["fileId", "fileName", "contentType", "url"] true
    [("fileId", fileId), ("fileName", fileName), ("contentType", contentType), ("url", url)]

def filesInBatch : Json → Bool := JsonSchema.integer 1

def id : Json → Bool
  | .str value => 1 ≤ value.length && isUuid value
  | _ => false

def sbi : Json → Bool := JsonSchema.number 105000000 999999999

def sourceSystem : Json → Bool :=
  JsonSchema.text 1 100 fun value => value ∈ ["fcp-sfd-frontend", "rps-portal"]

def source : Json → Bool := JsonSchema.text 1 100 fun _ => true

def specversion : Json → Bool := JsonSchema.text 3 10 fun _ => true

def submissionId : Json → Bool := JsonSchema.format isUuid

def time : Json → Bool := JsonSchema.format isDateTime

def type : Json → Bool := JsonSchema.text 3 250 fun _ => true

def data : Json → Bool :=
  JsonSchema.object
    ["crn", "crm", "correlationId", "file", "sbi", "sourceSystem", "submissionId"] false
    [ ("crn", crn), ("crm", crm), ("correlationId", correlationId),
      ("filesInBatch", filesInBatch), ("file", file), ("sbi", sbi),
      ("sourceSystem", sourceSystem), ("submissionId", submissionId) ]

/-- The payload of the message `documentUploaded`. -/
def documentUploaded : Json → Bool :=
  JsonSchema.object
    ["id", "source", "specversion", "type", "datacontenttype", "time", "data"] true
    [ ("id", id), ("source", source), ("type", type), ("specversion", specversion),
      ("datacontenttype", datacontenttype), ("time", time), ("data", data) ]

end Contract

/-- The configured values meet the contract themselves. -/
structure ConfigMeetsContract (cfg : Config) : Prop where
  documentTypes : ∀ type ∈ cfg.cdpUploaderDocumentTypes, Contract.crmCaseType (.str type) = true
  mimeTypes : ∀ mime ∈ cfg.cdpUploaderMimeTypes, Contract.contentType (.str mime) = true
  baseUrl : isUri cfg.publicApiBaseUrl = true

/-- The text of a field, or nothing when it holds no text. -/
def textOf : Option Json → String
  | some (.str text) => text
  | _ => ""

/-- What the contract asks of a document beyond what the callback has checked.  The
types are checked against the configured lists, unless a list is empty. -/
structure MeetsContract (cfg : Config) (document : InboundDocument) : Prop where
  submissionId : isUuid (textOf (document.metadata.get? "submissionId")) = true
  reference : (textOf (document.metadata.get? "reference")).length ≤ 170
  filename : (textOf document.file.filename).length ≤ 255
  fileId : isUuid (textOf (some document.file.fileId)) = true
  correlationId : isUuid document.messaging.correlationId = true
  type : cfg.cdpUploaderDocumentTypes = [] →
    Contract.crmCaseType (.str (textOf (document.metadata.get? "type"))) = true
  contentType : cfg.cdpUploaderMimeTypes = [] →
    Contract.contentType (.str (textOf document.file.contentType)) = true

instance (cfg : Config) (document : InboundDocument) : Decidable (MeetsContract cfg document) :=
  decidable_of_iff
    (isUuid (textOf (document.metadata.get? "submissionId")) = true ∧
      (textOf (document.metadata.get? "reference")).length ≤ 170 ∧
      (textOf document.file.filename).length ≤ 255 ∧
      isUuid (textOf (some document.file.fileId)) = true ∧
      isUuid document.messaging.correlationId = true ∧
      (cfg.cdpUploaderDocumentTypes = [] →
        Contract.crmCaseType (.str (textOf (document.metadata.get? "type"))) = true) ∧
      (cfg.cdpUploaderMimeTypes = [] →
        Contract.contentType (.str (textOf document.file.contentType)) = true))
    ⟨fun ⟨submissionId, reference, filename, fileId, correlationId, type, contentType⟩ =>
        ⟨submissionId, reference, filename, fileId, correlationId, type, contentType⟩,
      fun meets => ⟨meets.submissionId, meets.reference, meets.filename, meets.fileId,
        meets.correlationId, meets.type, meets.contentType⟩⟩

/-! ## What the callback has checked -/

/-- The business fields of accepted metadata. -/
structure BusinessFields (cfg : Config) (metadata : Json) where
  sbi : Nat
  crn : Nat
  submissionId : String
  type : String
  reference : String
  service : String
  sbiFound : metadata.get? "sbi" = some (.int sbi)
  sbiRange : schemaConsts.SBI_MIN ≤ sbi ∧ sbi ≤ schemaConsts.SBI_MAX
  crnFound : metadata.get? "crn" = some (.int crn)
  crnRange : schemaConsts.CRN_MIN ≤ crn ∧ crn ≤ schemaConsts.CRN_MAX
  submissionIdFound : metadata.get? "submissionId" = some (.str submissionId)
  typeFound : metadata.get? "type" = some (.str type)
  typeAllowed : cfg.cdpUploaderDocumentTypes = [] ∨ type ∈ cfg.cdpUploaderDocumentTypes
  referenceFound : metadata.get? "reference" = some (.str reference)
  serviceFound : metadata.get? "service" = some (.str service)
  serviceAllowed : service ∈ schemaConsts.SERVICE_EXAMPLES

/-- The fields of a complete file. -/
structure FileFields (cfg : Config) (file : DocumentFile) where
  fileId : String
  filename : String
  contentType : String
  fileIdFound : file.fileId = .str fileId
  filenameFound : file.filename = some (.str filename)
  filenameNonempty : filename ≠ ""
  contentTypeFound : file.contentType = some (.str contentType)
  contentTypeAllowed : cfg.cdpUploaderMimeTypes = [] ∨ contentType ∈ cfg.cdpUploaderMimeTypes

/-- `data.file` of the message, read off the checked fields. -/
def sentFile {cfg : Config} {file : DocumentFile} (fields : FileFields cfg file) : Json :=
  .obj
    [ ("fileId", .str fields.fileId), ("fileName", .str fields.filename),
      ("contentType", .str fields.contentType),
      ("url", .str (blobUrl cfg (.str fields.fileId))) ]

/-- `data` of the message, read off the checked fields. -/
def sentData {cfg : Config} {stored : MetadataDocument} (now : CalendarTime)
    (fields : BusinessFields cfg stored.metadata) (fileFields : FileFields cfg stored.file) :
    Json :=
  .obj
    [ ("crn", .int fields.crn),
      ("crm", .obj
        [("caseType", .str fields.type), ("title", .str (crmTitle now stored.metadata))]),
      ("correlationId", .str stored.messaging.correlationId),
      ("filesInBatch", .int stored.messaging.filesInBatch),
      ("file", sentFile fileFields),
      ("sbi", .int fields.sbi),
      ("sourceSystem", .str fields.service),
      ("submissionId", .str fields.submissionId) ]

section Fields

variable {keys : List (String × Schema)} {value : Json}

theorem integerField (accepted : Schema.object keys value = true) (name : String)
    (least greatest : Nat)
    (key : (name, Schema.required (Schema.integer least greatest)) ∈ keys) :
    ∃ number : Nat, value.get? name = some (.int number) ∧ least ≤ number ∧
      number ≤ greatest := by
  obtain ⟨field, found, isInteger⟩ := Schema.admits_required (Schema.object_key accepted key)
  obtain ⟨number, rfl, range⟩ := Schema.integer_eq_true isInteger
  exact ⟨number, found, range⟩

theorem textField (accepted : Schema.object keys value = true) (name : String)
    (rule : String → Bool)
    (key : (name, Schema.required (Schema.string rule)) ∈ keys) :
    ∃ text, value.get? name = some (.str text) ∧ text ≠ "" ∧ rule text = true := by
  obtain ⟨field, found, isText⟩ := Schema.admits_required (Schema.object_key accepted key)
  obtain ⟨text, rfl, nonempty, allowed⟩ := Schema.string_eq_true isText
  exact ⟨text, found, nonempty, allowed⟩

end Fields

section Documents

variable {cfg : Config} {body : Json} {correlationId : String} {documents : List InboundDocument}
  {document : InboundDocument}

/-- The metadata of a document built from an accepted callback. -/
theorem businessFields_of_formatted (schema : callbackPayloadSchema cfg body = true)
    (valid : validateCallbackPayload (handledPayload cfg body) = none)
    (formatted : formatInboundMetadata cfg (handledPayload cfg body) correlationId =
      some documents) (member : document ∈ documents) :
    Nonempty (BusinessFields cfg document.metadata) := by
  obtain ⟨file, _, _, _, _, rfl⟩ := file_of_formatted schema valid formatted member
  obtain ⟨metadata, found, same⟩ := handledPayload_metadata schema
  obtain ⟨received, receivedFound, accepted⟩ := accepted_metadata schema
  have copied (name : String) (plain : Json.arrayIndex? name = none) (other : name ≠ journeyIdKey) :
      (inboundDocument (handledPayload cfg body) correlationId documents.length
        file).metadata.get? name = received.get? name := by
    have field := same name plain other
    rw [metadataField, receivedFound] at field
    simpa [inboundDocument, found] using field
  obtain ⟨sbi, sbiFound, sbiRange⟩ := integerField accepted "sbi" schemaConsts.SBI_MIN
    schemaConsts.SBI_MAX (by simp [baseMetadataKeys])
  obtain ⟨crn, crnFound, crnRange⟩ := integerField accepted "crn" schemaConsts.CRN_MIN
    schemaConsts.CRN_MAX (by simp [baseMetadataKeys])
  obtain ⟨submissionId, submissionIdFound, _⟩ := textField accepted "submissionId" (fun _ => true)
    (by simp [baseMetadataKeys, Schema.anyString])
  obtain ⟨type, typeFound, _, typeAllowed⟩ := textField accepted "type"
    (fun value => cfg.cdpUploaderDocumentTypes = [] ∨ value ∈ cfg.cdpUploaderDocumentTypes)
    (by simp [baseMetadataKeys, Schema.valid])
  obtain ⟨reference, referenceFound, _⟩ := textField accepted "reference" (fun _ => true)
    (by simp [baseMetadataKeys, Schema.anyString])
  obtain ⟨service, serviceFound, _, serviceAllowed⟩ := textField accepted "service"
    (fun value => value ∈ schemaConsts.SERVICE_EXAMPLES)
    (by simp [baseMetadataKeys, Schema.valid, schemaConsts.SERVICE_EXAMPLES])
  exact ⟨sbi, crn, submissionId, type, reference, service,
    (copied "sbi" (by decide) (by decide)).trans sbiFound, sbiRange,
    (copied "crn" (by decide) (by decide)).trans crnFound, crnRange,
    (copied "submissionId" (by decide) (by decide)).trans submissionIdFound,
    (copied "type" (by decide) (by decide)).trans typeFound, by simpa using typeAllowed,
    (copied "reference" (by decide) (by decide)).trans referenceFound,
    (copied "service" (by decide) (by decide)).trans serviceFound, by simpa using serviceAllowed⟩

/-- The file of a document built from an accepted callback. -/
theorem fileFields_of_formatted (schema : callbackPayloadSchema cfg body = true)
    (valid : validateCallbackPayload (handledPayload cfg body) = none)
    (formatted : formatInboundMetadata cfg (handledPayload cfg body) correlationId =
      some documents) (member : document ∈ documents) :
    Nonempty (FileFields cfg document.file) := by
  obtain ⟨file, _, _, accepted, complete, rfl⟩ := file_of_formatted schema valid formatted member
  have keys : Schema.object (fileUploadKeys cfg (some (.str "complete"))) file = true := by
    rwa [fileUploadSchema, complete] at accepted
  obtain ⟨fileId, fileIdFound, _⟩ := textField keys "fileId" cfg.isUuidV4
    (by simp [fileUploadKeys])
  obtain ⟨filename, filenameFound, filenameNonempty, _⟩ := textField keys "filename"
    (fun _ => true) (by simp [fileUploadKeys, Schema.anyString])
  obtain ⟨contentType, contentTypeFound, _, contentTypeAllowed⟩ := textField keys "contentType"
    (fun value => cfg.cdpUploaderMimeTypes = [] ∨ value ∈ cfg.cdpUploaderMimeTypes)
    (by simp [fileUploadKeys, Schema.valid])
  exact ⟨fileId, filename, contentType, by simp [inboundDocument, fileIdFound], filenameFound,
    filenameNonempty, contentTypeFound, by simpa using contentTypeAllowed⟩

/-! ## The message and the contract -/

theorem length_uploadDate (now : CalendarTime) : (uploadDate now).length = 10 := by
  obtain ⟨least, greatest⟩ := now.fourDigits
  have days := daysInMonth_le now.year now.month
  have month := now.isMonth
  have day := now.isDay
  have year : (Nat.toDigits 10 now.year).length = 4 := length_toDigits least greatest
  simp [uploadDate, year, length_padStart (by decide : 0 < 2) (by omega : now.month < 10 ^ 2),
    length_padStart (by decide : 0 < 2) (by omega : now.day < 10 ^ 2)]
  rfl

/-- The title adds thirty characters to the reference. -/
theorem length_crmTitle (now : CalendarTime) {metadata : Json}
    (fields : BusinessFields cfg metadata) :
    (crmTitle now metadata).length = fields.reference.length + 30 := by
  obtain ⟨least, greatest⟩ := fields.crnRange
  have digits : fields.crn.repr.length = 10 := by
    rw [Nat.repr_eq_ofList_toDigits, String.length_ofList]
    have tenDigits : fields.crn < 10 ^ (9 + 1) := Nat.lt_of_le_of_lt greatest (by decide)
    exact length_toDigits (Nat.le_trans (by decide) least) tenDigits
  simp only [crmTitle, fields.referenceFound, fields.crnFound, Json.templateText,
    Json.text_natural, Json.text, String.length_append, digits, length_uploadDate]
  rfl

/-- The base URL stays a URI when the path of a canonical file identifier follows. -/
theorem isUri_blobUrl (contract : ConfigMeetsContract cfg) {fileId : String}
    (canonical : isUuid fileId = true) : isUri (blobUrl cfg (.str fileId)) = true := by
  refine isUri_append contract.baseUrl fun char member => ?_
  rw [String.toList_append, List.mem_append] at member
  rcases member with path | identifier
  · have plain : "/api/v1/blob/".toList.all isUriChar = true := by decide
    exact List.all_eq_true.mp plain char path
  · rcases isUuid_chars canonical char identifier with digit | rfl
    · exact isUriChar_of_isHexDigit digit
    · rfl

/-- A text checked against a list whose members all meet a rule is in question only when
the list is empty. -/
theorem rule_iff_of_allowed (rule : String → Bool) {allowed : List String} {value : String}
    (listed : ∀ member ∈ allowed, rule member = true) (checked : allowed = [] ∨ value ∈ allowed) :
    rule value = true ↔ (allowed = [] → rule value = true) := by
  refine ⟨fun meets _ => meets, fun unlisted => ?_⟩
  rcases checked with empty | member
  · exact unlisted empty
  · exact listed value member

theorem crm_conforms (contract : ConfigMeetsContract cfg) (now : CalendarTime) {metadata : Json}
    (fields : BusinessFields cfg metadata) :
    Contract.crm (.obj [("caseType", .str fields.type), ("title", .str (crmTitle now metadata))])
      = true ↔
        (cfg.cdpUploaderDocumentTypes = [] → Contract.crmCaseType (.str fields.type) = true) ∧
          fields.reference.length ≤ 170 := by
  have parts : Contract.crm
      (.obj [("caseType", .str fields.type), ("title", .str (crmTitle now metadata))]) = true ↔
        Contract.crmCaseType (.str fields.type) = true ∧ fields.reference.length ≤ 170 := by
    simp [Contract.crm, JsonSchema.object, List.lookup_cons, Contract.title,
      length_crmTitle now fields]
  exact parts.trans (and_congr_left' (rule_iff_of_allowed
    (fun type => Contract.crmCaseType (.str type)) contract.documentTypes fields.typeAllowed))

theorem file_conforms (contract : ConfigMeetsContract cfg) {file : DocumentFile}
    (fields : FileFields cfg file) :
    Contract.file (sentFile fields) = true ↔
      isUuid fields.fileId = true ∧ fields.filename.length ≤ 255 ∧
        (cfg.cdpUploaderMimeTypes = [] →
          Contract.contentType (.str fields.contentType) = true) := by
  have nonempty : 1 ≤ fields.filename.length := by
    rw [Nat.one_le_iff_ne_zero]
    exact fun empty => fields.filenameNonempty (String.length_eq_zero_iff.mp empty)
  have parts : Contract.file (sentFile fields) = true ↔ isUuid fields.fileId = true ∧
      (1 ≤ fields.filename.length ∧ fields.filename.length ≤ 255) ∧
        Contract.contentType (.str fields.contentType) = true ∧
          isUri (blobUrl cfg (.str fields.fileId)) = true := by
    simp [sentFile, Contract.file, JsonSchema.object, List.lookup_cons, Contract.fileId,
      Contract.fileName, Contract.url]
  have mime := rule_iff_of_allowed (fun mime => Contract.contentType (.str mime))
    contract.mimeTypes fields.contentTypeAllowed
  rw [parts]
  constructor
  · rintro ⟨canonical, ⟨_, short⟩, typed, _⟩
    exact ⟨canonical, short, mime.mp typed⟩
  · rintro ⟨canonical, short, typed⟩
    -- The URL is a URI because the identifier is canonical.
    exact ⟨canonical, ⟨nonempty, short⟩, mime.mpr typed, isUri_blobUrl contract canonical⟩

section Message

variable {stored : MetadataDocument} (fields : BusinessFields cfg stored.metadata)
  (fileFields : FileFields cfg stored.file)

theorem data_conforms (contract : ConfigMeetsContract cfg) (now : CalendarTime)
    (batch : 1 ≤ stored.messaging.filesInBatch) :
    Contract.data (sentData now fields fileFields) = true ↔
      MeetsContract cfg stored.toInboundDocument := by
  have sbi : Contract.sbi (.int fields.sbi) = true :=
    (JsonSchema.number_int ..).mpr fields.sbiRange
  have crn : Contract.crn (.int fields.crn) = true :=
    (JsonSchema.number_int ..).mpr fields.crnRange
  have filesInBatch : Contract.filesInBatch (.int stored.messaging.filesInBatch) = true :=
    (JsonSchema.integer_int ..).mpr batch
  have sourceSystem : Contract.sourceSystem (.str fields.service) = true := by
    have services : ∀ service ∈ schemaConsts.SERVICE_EXAMPLES,
        Contract.sourceSystem (.str service) = true := by decide
    exact services _ fields.serviceAllowed
  have parts : Contract.data (sentData now fields fileFields) = true ↔
      ((cfg.cdpUploaderDocumentTypes = [] → Contract.crmCaseType (.str fields.type) = true) ∧
          fields.reference.length ≤ 170) ∧
        isUuid stored.messaging.correlationId = true ∧
          (isUuid fileFields.fileId = true ∧ fileFields.filename.length ≤ 255 ∧
            (cfg.cdpUploaderMimeTypes = [] →
              Contract.contentType (.str fileFields.contentType) = true)) ∧
            isUuid fields.submissionId = true := by
    simp [sentData, Contract.data, JsonSchema.object, List.lookup_cons, Contract.correlationId,
      Contract.submissionId, crm_conforms contract, file_conforms contract, sbi, crn,
      sourceSystem, filesInBatch]
  rw [parts]
  constructor
  · rintro ⟨⟨type, reference⟩, correlationId, ⟨fileId, filename, contentType⟩, submissionId⟩
    exact ⟨by rwa [fields.submissionIdFound], by rwa [fields.referenceFound],
      by rwa [fileFields.filenameFound], by rwa [fileFields.fileIdFound], correlationId,
      by rwa [fields.typeFound], by rwa [fileFields.contentTypeFound]⟩
  · rintro ⟨submissionId, reference, filename, fileId, correlationId, type, contentType⟩
    rw [fields.submissionIdFound] at submissionId
    rw [fields.referenceFound] at reference
    rw [fields.typeFound] at type
    rw [fileFields.filenameFound] at filename
    rw [fileFields.fileIdFound] at fileId
    rw [fileFields.contentTypeFound] at contentType
    exact ⟨⟨type, reference⟩, correlationId, ⟨fileId, filename, contentType⟩, submissionId⟩

/-- The message of a stored document, read off the fields the callback has checked. -/
theorem buildDocumentUploadMessage_eq (clock : MessageClock) :
    buildDocumentUploadMessage cfg clock stored = .obj
      [ ("id", .str fileFields.fileId),
        ("source", .str "fcp-sfd-object-processor"),
        ("specversion", .str "1.0"),
        ("type", .str "uk.gov.fcp.sfd.document.uploaded"),
        ("datacontenttype", .str "application/json"),
        ("time", .str (toISOString clock.sent)),
        ("data", sentData clock.now fields fileFields) ] := by
  simp only [buildDocumentUploadMessage, Json.ofProperties, fields.crnFound, fields.sbiFound,
    fields.submissionIdFound, fields.typeFound, fields.serviceFound, fileFields.fileIdFound,
    fileFields.filenameFound, fileFields.contentTypeFound]
  rfl

include fields fileFields in
/-- The message of a stored document conforms exactly when the document does. -/
theorem documentUploaded_iff (contract : ConfigMeetsContract cfg) (clock : MessageClock)
    (batch : 1 ≤ stored.messaging.filesInBatch) :
    Contract.documentUploaded (buildDocumentUploadMessage cfg clock stored) = true ↔
      MeetsContract cfg stored.toInboundDocument := by
  have constants : Contract.source (.str "fcp-sfd-object-processor") = true ∧
      Contract.specversion (.str "1.0") = true ∧
      Contract.type (.str "uk.gov.fcp.sfd.document.uploaded") = true ∧
      Contract.datacontenttype (.str "application/json") = true := by decide
  have time : Contract.time (.str (toISOString clock.sent)) = true := by
    rw [Contract.time, JsonSchema.format_str]
    exact isDateTime_toISOString clock.sent
  have parts : Contract.documentUploaded (buildDocumentUploadMessage cfg clock stored) = true ↔
      Contract.id (.str fileFields.fileId) = true ∧
        Contract.data (sentData clock.now fields fileFields) = true := by
    rw [buildDocumentUploadMessage_eq fields fileFields]
    simp [Contract.documentUploaded, JsonSchema.object, List.lookup_cons, constants, time]
  rw [parts, data_conforms fields fileFields contract clock.now batch]
  refine ⟨And.right, fun meets => ⟨?_, meets⟩⟩
  have canonical : isUuid fileFields.fileId = true := by
    simpa [fileFields.fileIdFound, textOf] using meets.fileId
  simp [Contract.id, canonical, isUuid_nonempty canonical]

end Message

/-- The messages of the documents of an accepted callback conform exactly when the
documents do; the callback leaves no other difference between the two schemas. -/
theorem published_messages_conform_iff (schema : callbackPayloadSchema cfg body = true)
    (valid : validateCallbackPayload (handledPayload cfg body) = none)
    (formatted : formatInboundMetadata cfg (handledPayload cfg body) correlationId =
      some documents) (contract : ConfigMeetsContract cfg) (clock : Nat → MessageClock)
    {batch : List OutboxEntry}
    (built : ∀ entry ∈ batch, entry.payload.toInboundDocument ∈ documents) :
    (∀ message ∈ buildDocumentUploadMessageBatch cfg clock batch,
        Contract.documentUploaded message = true) ↔
      ∀ entry ∈ batch, MeetsContract cfg entry.payload.toInboundDocument := by
  have conforms : ∀ entry ∈ batch, ∀ clock, Contract.documentUploaded
      (buildDocumentUploadMessage cfg clock entry.payload) = true ↔
        MeetsContract cfg entry.payload.toInboundDocument := by
    intro entry member clock
    have built := built entry member
    obtain ⟨fields⟩ := businessFields_of_formatted schema valid formatted built
    obtain ⟨fileFields⟩ := fileFields_of_formatted schema valid formatted built
    obtain ⟨file, _, _, _, _, same⟩ := file_of_formatted schema valid formatted built
    have counted : entry.payload.messaging.filesInBatch = documents.length := by
      rw [same, inboundDocument]
    exact documentUploaded_iff fields fileFields contract clock
      (counted ▸ List.length_pos_of_mem built)
  constructor
  · intro all entry member
    obtain ⟨index, at_index⟩ := List.getElem?_of_mem member
    have indexed := List.mk_mem_zipIdx_iff_getElem?.mpr at_index
    exact (conforms entry member (clock index)).mp (all _ (List.mem_map_of_mem indexed))
  · intro all message member
    obtain ⟨⟨entry, index⟩, indexed, rfl⟩ := List.mem_map.mp member
    have inBatch := List.fst_mem_of_mem_zipIdx indexed
    exact (conforms entry inBatch (clock index)).mpr (all entry inBatch)

end Documents

namespace Sample

/-- A moment of the sample clock. -/
def noon : CalendarTime where
  year := 2025
  month := 6
  day := 30
  hour := 12
  minute := 0
  second := 0
  millisecond := 0
  fourDigits := by decide
  isMonth := by decide
  isDay := by decide
  ofDay := by decide

def clock : Nat → MessageClock := fun _ => { now := noon, sent := noon }

/-- The body of a callback whose submission identifier is a UUID. -/
def conformingBody : Json :=
  .obj
    [ ("uploadStatus", .str "ready"), ("metadata", metadata fileB),
      ("form", .obj [("document", file fileA)]), ("numberOfRejectedFiles", .int 0) ]

/-- The entries a callback inserts into an empty store. -/
def entries (body : Json) : List OutboxEntry :=
  (uploadCallback config (env 1) { sessions := [], metadata := [], status := [], outbox := [] }
    body).store.outbox

end Sample

theorem Sample.config_meets_contract : ConfigMeetsContract Sample.config :=
  ⟨by decide, by decide, by decide⟩

theorem published_messages_conform_iff_sample :
    Sample.entries Sample.conformingBody ≠ [] ∧
      ∀ message ∈ buildDocumentUploadMessageBatch Sample.config Sample.clock
        (Sample.entries Sample.conformingBody), Contract.documentUploaded message = true := by
  obtain ⟨documents, formatted, built⟩ : ∃ documents,
      formatInboundMetadata Sample.config (handledPayload Sample.config Sample.conformingBody)
          Sample.correlationId = some documents ∧
        ∀ entry ∈ Sample.entries Sample.conformingBody,
          entry.payload.toInboundDocument ∈ documents :=
    ⟨_, rfl, by decide⟩
  exact ⟨by decide, (published_messages_conform_iff (by decide) (by decide) formatted
    Sample.config_meets_contract Sample.clock built).mpr (by decide)⟩

/-- The submission identifier of the published examples is no UUID. -/
theorem Sample.accepted_message_breaks_contract :
    ConfigMeetsContract Sample.config ∧
      callbackPayloadSchema Sample.config (Sample.body [("document", Sample.file Sample.fileA)]) =
        true ∧
      validateCallbackPayload (handledPayload Sample.config
        (Sample.body [("document", Sample.file Sample.fileA)])) = none ∧
      (buildDocumentUploadMessageBatch Sample.config Sample.clock
          (Sample.entries (Sample.body [("document", Sample.file Sample.fileA)]))).map
        Contract.documentUploaded = [false] :=
  ⟨Sample.config_meets_contract, by decide, by decide, by decide⟩

end ObjectProcessor
