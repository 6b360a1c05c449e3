import ObjectProcessor.Library.JsonSchema
import ObjectProcessor.Callback.Schema
import ObjectProcessor.Metadata.Pages

/-!
# The metadata route

A page is read and answered as it is; the schema of the answer is closed, so a single
document with one key too many or one too few would make every page that holds it an
internal error.
-/

namespace ObjectProcessor

open Library Schema schemaConsts

namespace schemaConsts

def CURSOR_LENGTH : Nat := 24

end schemaConsts

/-- `mongo.metadataSbiPageSize` and `mongo.metadataSbiMaxPageSize`, positive integers both. -/
structure PageSettings where
  metadataSbiPageSize : Nat
  metadataSbiMaxPageSize : Nat
  positive : 0 < metadataSbiPageSize ∧ 0 < metadataSbiMaxPageSize

/-! ## The request -/

/-- `Joi.string().hex().length(CURSOR_LENGTH)` -/
def isCursor (text : String) : Bool :=
  text.toList.all isHexDigit && Json.unitLength text = CURSOR_LENGTH

/-- The page size of a query, a text that is converted.  Joi takes no unsafe number. -/
def pageSizeSchema (settings : PageSettings) (toNumber : String → Option Rat) (value : Json) :
    Bool :=
  (convertNumber toNumber value).any fun number =>
    integer 1 (min settings.metadataSbiMaxPageSize maxSafeInteger) (.num (.finite number))

def metadataQuerySchema (settings : PageSettings) (toNumber : String → Option Rat) : Json → Bool :=
  object
    [ ("pageSize", optional (pageSizeSchema settings toNumber)),
      ("after", optional (string isCursor)) ]

/-- `request.query.pageSize`, once the query is validated. -/
def queryPageSize (settings : PageSettings) (toNumber : String → Option Rat) (query : Json) : Nat :=
  match query.get? "pageSize" with
  | none => settings.metadataSbiPageSize
  | some value => ((convertNumber toNumber value).map fun number => number.num.toNat).getD 0

/-- `request.query.after` -/
def queryAfter (query : Json) : Option String :=
  match query.get? "after" with
  | some (.str text) => some text
  | _ => none

/-! ## The answer -/

inductive MetadataResponse where
  /-- 200, with the body its schema is applied to. -/
  | ok (body : Json)
  /-- 404 -/
  | notFound (error : NotFoundError)
  /-- 500 -/
  | internalError

/-- The event for one read.  An entity without a document has no identifier. -/
structure ReadAudit where
  sbi : String
  entities : List (Option Json)
  count : Nat
  pageSize : Nat
  deriving DecidableEq

def buildReadEntities (documents : List PageDocument) : List (Option Json) :=
  if 0 < documents.length then documents.map fun document => some document.file.fileId else [none]

def readAuditEvent (sbi : Int) (documents : List PageDocument) (pageSize : Nat) : ReadAudit where
  sbi := (Json.int sbi).text
  entities := buildReadEntities documents
  count := documents.length
  pageSize := pageSize

def DocumentFile.toJson (file : DocumentFile) : Json :=
  .ofProperties
    [ ("fileId", some file.fileId), ("filename", file.filename),
      ("contentType", file.contentType), ("fileStatus", file.fileStatus) ]

def PageDocument.toJson (document : PageDocument) : Json :=
  .obj
    [ ("_id", .str document.id.toHexString), ("metadata", document.metadata),
      ("file", document.file.toJson) ]

def MetadataPage.pageJson (pageSize : Nat) (page : MetadataPage) : Json :=
  .obj
    [ ("pageSize", .int pageSize), ("count", .int page.documents.length),
      ("hasMore", .bool page.hasMore), ("nextCursor", page.nextCursor.elim .null .str) ]

def MetadataPage.toJson (pageSize : Nat) (page : MetadataPage) : Json :=
  .obj
    [ ("data", .arr (page.documents.map PageDocument.toJson)), ("page", page.pageJson pageSize) ]

/-- The handler, for the number of the path and a validated query: the answer and the event
of the read. -/
def metadataHandler (stored : List MetadataDocument) (sbi : Int) (pageSize : Nat)
    (after : Option String) : MetadataResponse × Option ReadAudit :=
  match toCursor after with
  | none => (.internalError, none)
  | some cursor =>
      match getMetadataPageBySbi stored sbi pageSize cursor with
      | .ok page =>
          (.ok (page.toJson pageSize), some (readAuditEvent sbi page.documents pageSize))
      | .error error => (.notFound error, some (readAuditEvent sbi [] pageSize))

/-- `GET /metadata/sbi/{sbi}` with an admitted query. -/
def metadataRoute (settings : PageSettings) (toNumber : String → Option Rat)
    (stored : List MetadataDocument) (sbi : Int) (query : Json) :
    MetadataResponse × Option ReadAudit :=
  metadataHandler stored sbi (queryPageSize settings toNumber query) (queryAfter query)

/-! ## Its schema -/

def metadataFieldKeys : List (String × Schema) :=
  [ ("sbi", optional (integer SBI_MIN SBI_MAX)),
    ("crn", optional (integer CRN_MIN CRN_MAX)),
    ("frn", optional (integer FRN_MIN FRN_MAX)),
    ("submissionId", optional anyString),
    ("uosr", optional anyString),
    ("type", optional anyString),
    ("reference", optional anyString),
    ("service", optional anyString) ]

def fileFieldKeys (cfg : Config) : List (String × Schema) :=
  [ ("fileId", required (string cfg.isUuidV4)),
    ("filename", required anyString),
    ("contentType", required anyString),
    ("fileStatus", required anyString) ]

def metadataDocumentSchema (cfg : Config) : Json → Bool :=
  object
    [ ("_id", required anything),
      ("metadata", required (object metadataFieldKeys)),
      ("file", required (object (fileFieldKeys cfg))) ]

/-- A cursor, or `null`. -/
def nextCursorSchema : Json → Bool
  | .null => true
  | value => string isCursor value

def metadataPageSchema : Json → Bool :=
  object
    [ ("pageSize", required safeInteger),
      ("count", required safeInteger),
      ("hasMore", required boolean),
      ("nextCursor", required nextCursorSchema) ]

def metadataSuccessSchema (cfg : Config) : Json → Bool :=
  object
    [ ("data", optional (array (metadataDocumentSchema cfg))),
      ("page", required metadataPageSchema) ]

/-! ## What an admitted query asks for -/

theorem safeInteger_int {value : Nat} (safe : value ≤ maxSafeInteger) :
    safeInteger (.int value) = true := by
  simp [safeInteger, Json.int, safe]

section Query

variable {settings : PageSettings} {toNumber : String → Option Rat} {query : Json}

/-- A page is never empty by request, and its size is a number the answer may repeat. -/
theorem queryPageSize_bounds (admitted : metadataQuerySchema settings toNumber query = true)
    (representable : query.get? "pageSize" = none →
      settings.metadataSbiPageSize ≤ maxSafeInteger) :
    1 ≤ queryPageSize settings toNumber query ∧
      queryPageSize settings toNumber query ≤ maxSafeInteger := by
  unfold queryPageSize
  split
  · rename_i absent
    exact ⟨settings.positive.1, representable absent⟩
  · rename_i value found
    have size : (optional (pageSizeSchema settings toNumber)).admits (query.get? "pageSize") =
        true := object_key admitted (by simp)
    rw [found, optional_some] at size
    obtain ⟨number, converted, isSize⟩ := (Option.any_eq_true _ _).mp size
    obtain ⟨natural, same, least, greatest⟩ := integer_eq_true isSize
    have whole : number = ((natural : Int) : Rat) := by
      simpa [Json.int] using same
    rw [converted, whole]
    simp only [Option.map_some, Option.getD_some, Rat.num_intCast, Int.toNat_natCast]
    exact ⟨least, Nat.le_trans greatest (Nat.min_le_right _ _)⟩

theorem isHexDigit_of_isCursor {text : String} (isText : isCursor text = true) :
    ∀ char ∈ text.toList, isHexDigit char = true := by
  rw [isCursor, Bool.and_eq_true, List.all_eq_true] at isText
  exact isText.1

theorem unitLength_of_hex {text : String}
    (digits : ∀ char ∈ text.toList, isHexDigit char = true) :
    Json.unitLength text = text.length :=
  Json.unitLength_eq_length fun char member =>
    Nat.lt_trans (toNat_lt_of_isHexDigit (digits char member)) (by decide)

theorem isCursor_toHexString (id : ObjectId) : isCursor id.toHexString = true := by
  have digits : ∀ char ∈ id.toHexString.toList, isHexDigit char = true := by
    intro char member
    rw [ObjectId.toHexString, String.toList_ofList] at member
    exact isHexDigit_of_mem_hexDigits member
  rw [isCursor, Bool.and_eq_true, List.all_eq_true]
  refine ⟨digits, ?_⟩
  rw [unitLength_of_hex digits]
  simp [ObjectId.toHexString, CURSOR_LENGTH]

/-- `createFromHexString` does not throw for an admitted cursor. -/
theorem exists_createFromHexString {text : String} (isText : isCursor text = true) :
    ∃ id, ObjectId.createFromHexString text = some id := by
  have digits := isHexDigit_of_isCursor isText
  have width : text.length = 24 := by
    rw [isCursor, unitLength_of_hex digits, Bool.and_eq_true] at isText
    exact of_decide_eq_true isText.2
  obtain ⟨value, reads, fits⟩ := exists_readHex digits
  rw [String.length_toList, width] at fits
  refine ⟨⟨value, fits⟩, ?_⟩
  rw [ObjectId.createFromHexString, if_pos width, reads, Option.bind_some, dif_pos fits]

theorem exists_toCursor (admitted : metadataQuerySchema settings toNumber query = true) :
    ∃ cursor, toCursor (queryAfter query) = some cursor := by
  have key : (optional (string isCursor)).admits (query.get? "after") = true :=
    object_key admitted (by simp)
  unfold queryAfter
  split
  · rename_i text found
    rw [found, optional_some] at key
    simp only [string, Bool.and_eq_true, decide_eq_true_eq] at key
    obtain ⟨id, read⟩ := exists_createFromHexString key.2
    exact ⟨some id, by simp [toCursor, key.1, read]⟩
  · exact ⟨none, rfl⟩

end Query

/-! ## What the schema asks of a document -/

/-- The contents the route can show of a document. -/
structure Readable (cfg : Config) (document : InboundDocument) : Prop where
  metadata : baseMetadataSchema cfg document.metadata = true
  fileId : string cfg.isUuidV4 document.file.fileId = true
  filename : (required anyString).admits document.file.filename = true
  contentType : (required anyString).admits document.file.contentType = true
  fileStatus : (required anyString).admits document.file.fileStatus = true

/-- What an initiate requires, the answer permits, and it names no other key. -/
theorem metadataFields_valid {cfg : Config} {metadata : Json}
    (accepted : baseMetadataSchema cfg metadata = true) :
    object metadataFieldKeys metadata = true := by
  refine object_imp accepted (by simp [baseMetadataKeys, metadataFieldKeys]) ?_
  intro key member field holds
  have listed := member
  simp only [metadataFieldKeys, List.mem_cons, List.not_mem_nil, or_false] at listed
  rcases listed with rfl | rfl | rfl | rfl | rfl | rfl | rfl | rfl
  · exact admits_optional (holds _ (by simp [baseMetadataKeys])) fun _ => id
  · exact admits_optional (holds _ (by simp [baseMetadataKeys])) fun _ => id
  · exact admits_optional (holds _ (by simp [baseMetadataKeys])) fun _ => id
  · exact admits_optional (holds _ (by simp [baseMetadataKeys])) fun _ => id
  · exact admits_optional (holds _ (by simp [baseMetadataKeys])) fun _ => id
  · exact admits_optional (holds (required (valid cfg.cdpUploaderDocumentTypes))
      (by simp [baseMetadataKeys])) fun _ => anyString_of_string
  · exact admits_optional (holds _ (by simp [baseMetadataKeys])) fun _ => id
  · exact admits_optional (holds (required (valid SERVICE_EXAMPLES))
      (by simp [baseMetadataKeys])) fun _ => anyString_of_string

theorem PageDocument.toJson_valid {cfg : Config} {document : MetadataDocument}
    (readable : Readable cfg document.toInboundDocument) :
    metadataDocumentSchema cfg document.projected.toJson = true := by
  obtain ⟨filename, hasFilename, isFilename⟩ := admits_required readable.filename
  obtain ⟨contentType, hasContentType, isContentType⟩ := admits_required readable.contentType
  obtain ⟨fileStatus, hasFileStatus, isFileStatus⟩ := admits_required readable.fileStatus
  have file : object (fileFieldKeys cfg) document.projected.file.toJson = true := by
    simp [MetadataDocument.projected, DocumentFile.toJson, Json.ofProperties, fileFieldKeys,
      object, List.lookup_cons, hasFilename, hasContentType, hasFileStatus,
      isFilename, isContentType, isFileStatus, readable.fileId]
  have metadata : object metadataFieldKeys document.projected.metadata = true :=
    metadataFields_valid readable.metadata
  rw [metadataDocumentSchema, PageDocument.toJson, object]
  simp [anything, List.lookup_cons, metadata, file]

/-! ## What it asks of a page -/

section Page

variable {cfg : Config} {stored : List MetadataDocument} {sbi : Int} {pageSize : Nat}
  {after : Option ObjectId} {page : MetadataPage}

/-- A page holds stored documents, at most as many as it may, and points on by the text of
an identifier. -/
theorem page_of_found (found : getMetadataPageBySbi stored sbi pageSize after = .ok page) :
    (∀ shown ∈ page.documents, ∃ document ∈ stored, document.projected = shown) ∧
      page.documents.length ≤ pageSize ∧
      ∀ text, page.nextCursor = some text → ∃ id : ObjectId, text = id.toHexString := by
  simp only [getMetadataPageBySbi] at found
  split at found
  · cases found
  · cases found
    set results := (((stored.filter fun document => isOfSbi sbi document &&
      after.all fun cursor => decide (document.id < cursor)).map
        MetadataDocument.projected).insertionSort fun left right => right.id ≤ left.id).take
          (pageSize + 1) with isResults
    have fromStored : ∀ shown ∈ results, ∃ document ∈ stored, document.projected = shown := by
      intro shown member
      rw [isResults] at member
      obtain ⟨document, isFound, same⟩ := List.mem_map.mp
        ((List.mem_insertionSort _).mp (List.mem_of_mem_take member))
      exact ⟨document, (List.mem_filter.mp isFound).1, same⟩
    refine ⟨?_, ?_, ?_⟩
    · dsimp only
      split
      · exact fun shown member => fromStored shown (List.mem_of_mem_take member)
      · exact fromStored
    · dsimp only
      split
      · exact List.length_take_le _ _
      · rename_i last
        simpa using last
    · intro text points
      dsimp only at points
      split at points
      · obtain ⟨last, _, rfl⟩ := Option.map_eq_some_iff.mp points
        exact ⟨last.id, rfl⟩
      · cases points

/-- A page shows stored documents of its business only. -/
theorem ofSbi_of_found (found : getMetadataPageBySbi stored sbi pageSize after = .ok page) :
    ∀ shown ∈ page.documents, ∃ document ∈ stored,
      isOfSbi sbi document = true ∧ document.projected = shown := by
  simp only [getMetadataPageBySbi] at found
  split at found
  · cases found
  · cases found
    intro shown member
    dsimp only at member
    have listed : shown ∈ (((stored.filter fun document => isOfSbi sbi document &&
        after.all fun cursor => decide (document.id < cursor)).map
          MetadataDocument.projected).insertionSort fun left right => right.id ≤ left.id).take
            (pageSize + 1) := by
      split at member
      · exact List.mem_of_mem_take member
      · exact member
    obtain ⟨document, isFound, same⟩ := List.mem_map.mp
      ((List.mem_insertionSort _).mp (List.mem_of_mem_take listed))
    obtain ⟨isStored, matched⟩ := List.mem_filter.mp isFound
    rw [Bool.and_eq_true] at matched
    exact ⟨document, isStored, matched.1, same⟩

/-- The event of a read names the documents of its answer. -/
theorem metadataRoute_audit {query : Json} {audit : ReadAudit}
    (audited : (metadataRoute settings toNumber stored sbi query).2 = some audit) :
    audit.sbi = (Json.int sbi).text ∧ audit.entities ≠ [] ∧
      ∀ fileId, some fileId ∈ audit.entities →
        ∃ document ∈ stored, isOfSbi sbi document = true ∧ document.file.fileId = fileId := by
  rw [metadataRoute, metadataHandler] at audited
  split at audited
  · cases audited
  · split at audited
    · rename_i page found
      cases audited
      simp only [readAuditEvent, buildReadEntities]
      split
      · rename_i some
        refine ⟨trivial, ?_, fun fileId member => ?_⟩
        · simpa using List.ne_nil_of_length_pos some
        · obtain ⟨shown, isShown, same⟩ := List.mem_map.mp member
          cases same
          obtain ⟨document, isStored, ofSbi, rfl⟩ := ofSbi_of_found found shown isShown
          exact ⟨document, isStored, ofSbi, rfl⟩
      · exact ⟨trivial, by simp, by simp⟩
    · cases audited
      exact ⟨rfl, by simp [readAuditEvent, buildReadEntities],
        by simp [readAuditEvent, buildReadEntities]⟩

/-- A page of readable documents satisfies the schema of the answer. -/
theorem MetadataPage.toJson_valid
    (readable : ∀ document ∈ stored, Readable cfg document.toInboundDocument)
    (safe : pageSize ≤ maxSafeInteger)
    (found : getMetadataPageBySbi stored sbi pageSize after = .ok page) :
    metadataSuccessSchema cfg (page.toJson pageSize) = true := by
  obtain ⟨documents, count, cursor⟩ := page_of_found found
  have data : array (metadataDocumentSchema cfg)
      (.arr (page.documents.map PageDocument.toJson)) = true := by
    simp only [Schema.array, List.all_eq_true, List.mem_map]
    rintro _ ⟨shown, member, rfl⟩
    obtain ⟨document, isStored, rfl⟩ := documents shown member
    exact PageDocument.toJson_valid (readable document isStored)
  have next : nextCursorSchema (page.nextCursor.elim .null .str) = true := by
    cases points : page.nextCursor with
    | none => rfl
    | some text =>
        obtain ⟨id, rfl⟩ := cursor text points
        have nonempty : id.toHexString ≠ "" := by
          intro empty
          have isText := isCursor_toHexString id
          rw [empty] at isText
          exact absurd isText (by decide)
        simp [nextCursorSchema, string, nonempty, isCursor_toHexString]
  have paging : metadataPageSchema (page.pageJson pageSize) = true := by
    rw [metadataPageSchema, MetadataPage.pageJson, object]
    simp [boolean, List.lookup_cons, next, safeInteger_int safe,
      safeInteger_int (Nat.le_trans count safe)]
  rw [metadataSuccessSchema, MetadataPage.toJson, object]
  simp [List.lookup_cons, data, paging]

end Page

end ObjectProcessor
