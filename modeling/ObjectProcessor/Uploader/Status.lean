import ObjectProcessor.Library.JsonSchema
import ObjectProcessor.Status.Verdict

/-!
# The status of an upload

The status route merges what the uploader answers with the local verdict.  Its own
answer is validated as well, and one its schema refuses becomes an internal error.
-/

namespace ObjectProcessor

open Library Schema schemaConsts

/-! ## The answer of the uploader -/

/-- The keys of a file in an answer of the uploader. -/
def cdpStatusFileKeys (cfg : Config) (fileStatus : Option Json) : List (String × Schema) :=
  let complete : Bool := fileStatus = some (.str "complete")
  let rejected : Bool := fileStatus = some (.str "rejected")
  let ifComplete (schema otherwise : Schema) : Schema := if complete then schema else otherwise
  let ifRejected (schema otherwise : Schema) : Schema := if rejected then schema else otherwise
  [ ("fileId", required (string cfg.isUuidV4)),
    ("filename", required anyString),
    ("contentType",
      ifRejected (optional anyString) (required (valid cfg.cdpUploaderMimeTypes))),
    ("detectedContentType",
      ifRejected (optional anyString) (optional (valid cfg.cdpUploaderMimeTypes))),
    ("contentLength",
      ifComplete (required (integer 1 maxSafeInteger)) (optional (integer 0 maxSafeInteger))),
    ("fileStatus", optional (valid FILE_STATUS_ENUM)),
    ("hasError",
      ifComplete forbidden (ifRejected (required fun value => value = .bool true)
        (optional boolean))),
    ("errorMessage",
      ifComplete forbidden (ifRejected (required (boundedString errorMessageMaxLength))
        (optional (boundedString errorMessageMaxLength)))),
    ("errorCode", ifComplete forbidden (optional (boundedString 100))),
    ("errorParams", ifComplete forbidden (optional anyObject)),
    ("checksumSha256",
      ifComplete (required (string base64Pattern)) (optional (string base64Pattern))),
    ("s3Key",
      ifComplete (required anyString) (ifRejected forbidden (optional anyString))),
    ("s3Bucket",
      ifComplete (required anyString) (ifRejected forbidden (optional anyString))) ]

def cdpStatusFileSchema (cfg : Config) (value : Json) : Bool :=
  object (cdpStatusFileKeys cfg (value.get? "fileStatus")) value

/-- A value of the form: a file, a group of files, or a text. -/
def cdpStatusFormValueSchema (cfg : Config) : Json → Bool
  | .str text => text ≠ ""
  | .arr items => items.all (cdpStatusFileSchema cfg)
  | value => cdpStatusFileSchema cfg value

/-- The form may be empty in early states. -/
def cdpStatusFormSchema (cfg : Config) : Json → Bool
  | .obj fields =>
      fields.all fun field => field.1 ≠ "" && cdpStatusFormValueSchema cfg field.2
  | _ => false

/-- `uploaderResponseFields.numberOfRejectedFiles`.  The answer of the uploader is not
validated strictly. -/
def convertedNumberOfRejectedFiles (toNumber : String → Option Rat)
    (uploadStatus : Option Json) : Schema :=
  if uploadStatus = some (.str "pending") ∨ uploadStatus = some (.str "initiated") then forbidden
  else
    optional fun value => (convertNumber toNumber value).any fun number =>
      integer 0 maxSafeInteger (.num (.finite number))

def cdpUploaderStatusResponseSchema (cfg : Config) (toNumber : String → Option Rat)
    (body : Json) : Bool :=
  object
    [ ("uploadStatus", required (valid ["initiated", "pending", "ready"])),
      ("metadata", required anyObject),
      ("form", required (cdpStatusFormSchema cfg)),
      ("numberOfRejectedFiles",
        convertedNumberOfRejectedFiles toNumber (body.get? "uploadStatus")) ] body

/-! ## The answer of the route -/

structure MappedStatus where
  uploadStatus : UploadStatus
  stage : String
  errors : Option (List ResponseError)
  form : Option Json
  metadata : Json

def UploadStatus.text : UploadStatus → String
  | .pending => "pending"
  | .success => "success"
  | .failure => "failure"

def VerdictStage.text : VerdictStage → String
  | .awaitingCallback => "awaiting-callback"
  | .accepted => "accepted"
  | .rejectedByProcessor => "rejected-by-processor"
  | .deliveryFailed => "delivery-failed"

/-- The text of a field, cut to 256 units. -/
def cutText? : Option Json → Option String
  | some (.str text) => some (Json.sliceText 256 text)
  | _ => none

/-- `a || b` of texts that may be absent. -/
def orText (text? : Option String) (otherwise : String) : String :=
  match text? with
  | some text => if text = "" then otherwise else text
  | none => otherwise

/-- The error of one rejected file. -/
def scannerError (file : Json) : ResponseError where
  field := (cutText? (file.get? "filename")).getD "file"
  errorType :=
    orText (cutText? (file.get? "errorCode"))
      (orText (cutText? (file.get? "errorMessage")) "rejected-by-scanner")

def isRejectedFile (value : Json) : Bool :=
  value.isObject && value.get? "fileStatus" = some (.str "rejected")

def extractScannerErrors (form : Option Json) : List ResponseError :=
  let errors := ((flattenFormValues form).filter isRejectedFile).map scannerError
  if errors ≠ [] then errors
  else [{ field := "file", errorType := "rejected-by-scanner" }]

/-- Whether the uploader has rejected files.  An absent number defaults to zero. -/
def hasRejectedFiles (toNumber : String → Option Rat) (cdpResponse : Json) : Bool :=
  ((cdpResponse.get? "numberOfRejectedFiles").bind (convertNumber toNumber)).any
    fun number => 0 < number

/-- `mapCdpStatus`, given the local verdict on the upload. -/
def mapCdpStatus (toNumber : String → Option Rat) (localVerdict : LocalVerdict)
    (cdpResponse : Json) : MappedStatus :=
  let form := cdpResponse.get? "form"
  let (uploadStatus, stage, errors) :=
    if cdpResponse.get? "uploadStatus" = some (.str "ready") then
      if hasRejectedFiles toNumber cdpResponse then
        (.failure, "rejected-by-scanner", some (extractScannerErrors form))
      else
        (localVerdict.uploadStatus, localVerdict.stage.text, localVerdict.errors)
    else
      (.pending, "scanning", none)
  { uploadStatus
    stage
    errors
    form := normaliseFormFields form
    metadata := (splitJourneyId (cdpResponse.get? "metadata")).2 }

def ResponseError.toJson (error : ResponseError) : Json :=
  .obj [("field", .str error.field), ("errorType", .str error.errorType)]

/-- `{ data: mappedStatus }` -/
def MappedStatus.toJson (status : MappedStatus) : Json :=
  .obj
    [ ("data", .ofProperties
        [ ("uploadStatus", some (.str status.uploadStatus.text)),
          ("stage", some (.str status.stage)),
          ("errors", some (status.errors.elim .null fun errors =>
            .arr (errors.map ResponseError.toJson))),
          ("form", status.form),
          ("metadata", some status.metadata) ]) ]

/-- The errors of the answer: a list, or `null`. -/
def responseErrorsSchema : Json → Bool
  | .null => true
  | .arr items =>
      items.all (object [("field", required anyString), ("errorType", required anyString)])
  | _ => false

/-- The stages the response schema admits. -/
def statusStages : List String :=
  [ "scanning", "rejected-by-scanner", "awaiting-callback", "rejected-by-processor",
    "delivery-failed", "accepted" ]

def uploaderStatusDataKeys (cfg : Config) : List (String × Schema) :=
  [ ("uploadStatus", required (valid ["pending", "success", "failure"])),
    ("stage", required (valid statusStages)),
    ("errors", required responseErrorsSchema),
    ("metadata", required anyObject),
    ("form", required (cdpStatusFormSchema cfg)) ]

def uploaderStatusSuccessSchema (cfg : Config) : Json → Bool :=
  object [("data", required (object (uploaderStatusDataKeys cfg)))]

/-! ## The form of an answer -/

section Form

variable {cfg : Config} {fields : List (String × Json)}

theorem cdpStatusFormSchema_obj :
    cdpStatusFormSchema cfg (.obj fields) = true ↔ ∀ field ∈ fields,
      field.1 ≠ "" ∧ cdpStatusFormValueSchema cfg field.2 = true := by
  simp [cdpStatusFormSchema]

theorem cdpStatusFormSchema_eq_true {form : Json} (valid : cdpStatusFormSchema cfg form = true) :
    ∃ fields, form = .obj fields := by
  cases form with
  | obj fields => exact ⟨fields, rfl⟩
  | _ => simp [cdpStatusFormSchema] at valid

/-- A file is a value of its own. -/
theorem cdpStatusFormValueSchema_of_file {value : Json}
    (valid : cdpStatusFileSchema cfg value = true) : cdpStatusFormValueSchema cfg value = true := by
  cases value with
  | obj fields => exact valid
  | _ => simp [cdpStatusFileSchema, object] at valid

/-- Every assignment of the normalised form is a value the schema admits. -/
theorem rekeyField_valid {field assignment : String × Json} (nonempty : field.1 ≠ "")
    (valid : cdpStatusFormValueSchema cfg field.2 = true)
    (member : assignment ∈ rekeyField field.1 field.2) :
    assignment.1 ≠ "" ∧ cdpStatusFormValueSchema cfg assignment.2 = true := by
  obtain ⟨key, value⟩ := field
  cases value with
  | arr items =>
      obtain ⟨item, isItem, rfl⟩ := List.mem_map.mp member
      have accepted := List.all_eq_true.mp valid item.1 (List.fst_mem_of_mem_zipIdx isItem)
      refine ⟨fun empty => ?_, cdpStatusFormValueSchema_of_file accepted⟩
      exact nonempty (String.append_eq_empty_iff.mp (String.append_eq_empty_iff.mp empty).1).1
  | _ =>
      cases List.mem_singleton.mp member
      exact ⟨nonempty, valid⟩

/-- Numbering the files of a group keeps the form valid. -/
theorem normaliseFormFields_valid {form : Json} (valid : cdpStatusFormSchema cfg form = true) :
    ∃ normalised, normaliseFormFields (some form) = some normalised ∧
      cdpStatusFormSchema cfg normalised = true := by
  obtain ⟨fields, rfl⟩ := cdpStatusFormSchema_eq_true valid
  refine ⟨_, rfl, cdpStatusFormSchema_obj.mpr fun assignment member => ?_⟩
  have assigned : assignment ∈ (rekeyed (.obj fields)).filter createsField :=
    (survivors_sublist _).subset ((assignAll_perm_survivors _).mem_iff.mp member)
  obtain ⟨field, isListed, isAssignment⟩ := List.mem_flatMap.mp (List.mem_filter.mp assigned).1
  have isField := (Json.listed_perm fields).mem_iff.mp isListed
  obtain ⟨nonempty, accepted⟩ := cdpStatusFormSchema_obj.mp valid field isField
  exact rekeyField_valid nonempty accepted isAssignment

/-- A flattened value of a valid form is a text or a valid file. -/
theorem cdpStatusFormSchema_flat {form value : Json} (valid : cdpStatusFormSchema cfg form = true)
    (member : value ∈ flattenFormValues (some form)) :
    (∃ text, value = .str text) ∨ cdpStatusFileSchema cfg value = true := by
  obtain ⟨fields, rfl⟩ := cdpStatusFormSchema_eq_true valid
  obtain ⟨field, isField, inFlat⟩ := Json.mem_flat_values.mp member
  have accepted := (cdpStatusFormSchema_obj.mp valid field isField).2
  obtain ⟨name, content⟩ := field
  cases content with
  | str text =>
      cases List.mem_singleton.mp (by simpa [Json.flat] using inFlat)
      exact Or.inl ⟨text, rfl⟩
  | arr items =>
      exact Or.inr (List.all_eq_true.mp accepted value (by simpa [Json.flat] using inFlat))
  | _ =>
      cases List.mem_singleton.mp (by simpa [Json.flat] using inFlat)
      exact Or.inr accepted

end Form

/-! ## The errors of an answer -/

/-- The response schema admits the error. -/
def ResponseError.Named (error : ResponseError) : Prop :=
  error.field ≠ "" ∧ error.errorType ≠ ""

theorem orText_ne_empty {text? : Option String} {otherwise : String} (nonempty : otherwise ≠ "") :
    orText text? otherwise ≠ "" := by
  unfold orText
  split
  · split
    · exact nonempty
    · assumption
  · exact nonempty

theorem scannerError_named {cfg : Config} {file : Json}
    (valid : cdpStatusFileSchema cfg file = true) : (scannerError file).Named := by
  have filename : (required anyString).admits (file.get? "filename") = true :=
    object_key valid (by simp [cdpStatusFileKeys])
  obtain ⟨value, found, isText⟩ := admits_required filename
  obtain ⟨text, rfl, nonempty, _⟩ := string_eq_true isText
  constructor
  · simpa [scannerError, found, cutText?] using Json.sliceText_ne_empty (by decide) nonempty
  · exact orText_ne_empty (orText_ne_empty (by decide))

theorem extractScannerErrors_named {cfg : Config} {form : Json}
    (valid : cdpStatusFormSchema cfg form = true) {error : ResponseError}
    (member : error ∈ extractScannerErrors (some form)) : error.Named := by
  simp only [extractScannerErrors] at member
  split at member
  · obtain ⟨file, isRejected, rfl⟩ := List.mem_map.mp member
    obtain ⟨inForm, rejected⟩ := List.mem_filter.mp isRejected
    rcases cdpStatusFormSchema_flat valid inForm with ⟨text, rfl⟩ | accepted
    · simp [isRejectedFile, Json.isObject] at rejected
    · exact scannerError_named accepted
  · cases List.mem_singleton.mp member
    exact ⟨by decide, by decide⟩

theorem responseErrorsSchema_of_named {errors : List ResponseError}
    (named : ∀ error ∈ errors, error.Named) :
    responseErrorsSchema (.arr (errors.map ResponseError.toJson)) = true := by
  simp only [responseErrorsSchema, List.all_eq_true, List.mem_map]
  rintro _ ⟨error, member, rfl⟩
  obtain ⟨field, errorType⟩ := named error member
  simp [ResponseError.toJson, object, anyString, string, required, admits, field, errorType,
    List.lookup_cons]

/-! ## The whole answer -/

section Answer

variable {cfg : Config} {toNumber : String → Option Rat} {body : Json}

theorem cdpResponse_form (accepted : cdpUploaderStatusResponseSchema cfg toNumber body = true) :
    ∃ form, body.get? "form" = some form ∧ cdpStatusFormSchema cfg form = true := by
  have admitted : (required (cdpStatusFormSchema cfg)).admits (body.get? "form") = true :=
    object_key accepted (by simp)
  exact admits_required admitted

/-- The answer holds no journey, whatever the uploader has echoed. -/
theorem mapCdpStatus_metadata (localVerdict : LocalVerdict) (body : Json) :
    (mapCdpStatus toNumber localVerdict body).metadata.get? journeyIdKey = none := by
  refine lookup_eq_none fun field member => ?_
  simpa using (List.mem_filter.mp member).2

theorem mapCdpStatus_errors (accepted : cdpUploaderStatusResponseSchema cfg toNumber body = true)
    {localVerdict : LocalVerdict}
    (named : ∀ errors, localVerdict.errors = some errors → ∀ error ∈ errors, error.Named) :
    ∀ errors, (mapCdpStatus toNumber localVerdict body).errors = some errors →
      ∀ error ∈ errors, error.Named := by
  obtain ⟨form, found, valid⟩ := cdpResponse_form accepted
  intro errors reported error member
  simp only [mapCdpStatus] at reported
  split at reported
  · split at reported
    · simp only [Option.some.injEq] at reported
      rw [← reported, found] at member
      exact extractScannerErrors_named valid member
    · exact named errors reported error member
  · cases reported

theorem mapCdpStatus_stage (toNumber : String → Option Rat) (localVerdict : LocalVerdict)
    (body : Json) : (mapCdpStatus toNumber localVerdict body).stage ∈ statusStages := by
  simp only [mapCdpStatus]
  split
  · split
    · simp [statusStages]
    · cases localVerdict.stage <;> simp [VerdictStage.text, statusStages]
  · simp [statusStages]

/-- What the response schema asks of the parts of an answer. -/
theorem toJson_valid {status : MappedStatus} {form : Json}
    (stage : status.stage ∈ statusStages)
    (named : ∀ errors, status.errors = some errors → ∀ error ∈ errors, error.Named)
    (hasForm : status.form = some form) (formValid : cdpStatusFormSchema cfg form = true)
    (metadata : anyObject status.metadata = true) :
    uploaderStatusSuccessSchema cfg status.toJson = true := by
  have errorsValid : responseErrorsSchema (status.errors.elim .null fun errors =>
      .arr (errors.map ResponseError.toJson)) = true := by
    cases reported : status.errors with
    | none => rfl
    | some errors => exact responseErrorsSchema_of_named (named errors reported)
  have uploadStatusValid : Schema.valid ["pending", "success", "failure"]
      (.str status.uploadStatus.text) = true := by
    cases status.uploadStatus <;> decide
  have stageValid : Schema.valid statusStages (.str status.stage) = true := by
    have nonempty : status.stage ≠ "" := by
      intro empty
      rw [empty] at stage
      exact absurd stage (by decide)
    simp [Schema.valid, string, nonempty, stage]
  have data : object (uploaderStatusDataKeys cfg) (.ofProperties
      [ ("uploadStatus", some (.str status.uploadStatus.text)),
        ("stage", some (.str status.stage)),
        ("errors", some (status.errors.elim .null fun errors =>
          .arr (errors.map ResponseError.toJson))),
        ("form", status.form),
        ("metadata", some status.metadata) ]) = true := by
    simp [uploaderStatusDataKeys, object, Json.ofProperties, required, admits, List.lookup_cons,
      hasForm, uploadStatusValid, stageValid, errorsValid, metadata, formValid]
  simp only [uploaderStatusSuccessSchema, MappedStatus.toJson]
  rw [object]
  simp [required, admits, List.lookup_cons, data]

/-- An answer whose errors are all named satisfies the schema of the route. -/
theorem mapCdpStatus_valid (accepted : cdpUploaderStatusResponseSchema cfg toNumber body = true)
    {localVerdict : LocalVerdict}
    (named : ∀ errors, localVerdict.errors = some errors → ∀ error ∈ errors, error.Named) :
    uploaderStatusSuccessSchema cfg (mapCdpStatus toNumber localVerdict body).toJson = true := by
  obtain ⟨form, found, valid⟩ := cdpResponse_form accepted
  obtain ⟨normalised, isNormalised, normalisedValid⟩ := normaliseFormFields_valid valid
  have hasForm : (mapCdpStatus toNumber localVerdict body).form = some normalised := by
    simp only [mapCdpStatus, found, isNormalised]
  exact toJson_valid (mapCdpStatus_stage toNumber localVerdict body)
    (mapCdpStatus_errors accepted named) hasForm normalisedValid rfl

end Answer

end ObjectProcessor
