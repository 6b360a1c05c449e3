import ObjectProcessor.Library.Schema
import ObjectProcessor.Config
import ObjectProcessor.Callback.Form

/-!
# The callback payload schema

The schema the callback route validates its payload against.  A file is
validated by keys that depend on its status.
-/

namespace ObjectProcessor

open Schema

namespace schemaConsts

def SBI_MIN : Nat := 105000000
def SBI_MAX : Nat := 999999999
def CRN_MIN : Nat := 1050000000
def CRN_MAX : Nat := 9999999999
def FRN_MIN : Nat := 1000000000
def FRN_MAX : Nat := 9999999999
def SERVICE_EXAMPLES : List String := ["fcp-sfd-frontend", "rps-portal"]
def FILE_STATUS_ENUM : List String := ["complete", "rejected", "pending"]

end schemaConsts

open schemaConsts

/-- `ERROR_MESSAGE_MAX_LENGTH` -/
def errorMessageMaxLength : Nat := 2000

/-- `JOURNEY_ID_KEY` -/
def journeyIdKey : String := "journeyId"

def isAlphanumeric (char : Char) : Bool :=
  ('A' ≤ char && char ≤ 'Z') || ('a' ≤ char && char ≤ 'z') || ('0' ≤ char && char ≤ '9')

/-- `/^[alphabet]+=*$/`: trailing padding after at least one character of the alphabet. -/
def isPadded (alphabet : Char → Bool) (text : String) : Bool :=
  let body := text.toList.reverse.dropWhile fun char => char = '='
  !body.isEmpty && body.all alphabet

/-- `[A-Za-z0-9+/]` -/
def standardAlphabet (char : Char) : Bool := isAlphanumeric char || char = '+' || char = '/'

/-- `[A-Za-z0-9-_]` -/
def urlSafeAlphabet (char : Char) : Bool := isAlphanumeric char || char = '-' || char = '_'

def base64Pattern (text : String) : Bool :=
  isPadded standardAlphabet text || isPadded urlSafeAlphabet text

/-- A text of bounded length. -/
def boundedString (longest : Nat) : Json → Bool :=
  string fun text => Json.unitLength text ≤ longest

/-- The keys of a file upload with the given status. -/
def fileUploadKeys (cfg : Config) (fileStatus : Option Json) : List (String × Schema) :=
  let complete : Bool := fileStatus = some (.str "complete")
  let rejected : Bool := fileStatus = some (.str "rejected")
  let ifComplete (schema otherwise : Schema) : Schema := if complete then schema else otherwise
  let ifRejected (schema otherwise : Schema) : Schema := if rejected then schema else otherwise
  [ ("fileId", required (string cfg.isUuidV4)),
    ("filename", required anyString),
    ("contentType",
      ifRejected (optional anyString) (required (valid cfg.cdpUploaderMimeTypes))),
    ("detectedContentType", optional (valid cfg.cdpUploaderMimeTypes)),
    ("contentLength",
      ifComplete (required (integer 1 maxSafeInteger)) (optional (integer 0 maxSafeInteger))),
    ("fileStatus", required (valid FILE_STATUS_ENUM)),
    ("hasError",
      ifComplete forbidden (ifRejected (required fun value => value = .bool true)
        (optional boolean))),
    ("errorMessage",
      ifComplete forbidden (ifRejected (required (boundedString errorMessageMaxLength))
        (optional (boundedString errorMessageMaxLength)))),
    ("errorCode", ifComplete forbidden (optional (boundedString 100))),
    ("errorParams", ifComplete forbidden (optional anyObject)),
    ("checksumSha256",
      ifComplete (required (string base64Pattern)) (optional (string base64Pattern))),
    ("s3Key",
      ifComplete (required anyString) (ifRejected forbidden (optional anyString))),
    ("s3Bucket",
      ifComplete (required anyString) (ifRejected forbidden (optional anyString))) ]

def fileUploadSchema (cfg : Config) (value : Json) : Bool :=
  object (fileUploadKeys cfg (value.get? "fileStatus")) value

/-- A value of the form: a text, a file, or a group of files. -/
def formValueSchema (cfg : Config) : Json → Bool
  | .str text => text ≠ ""
  | .arr items => items.all (fileUploadSchema cfg)
  | value => fileUploadSchema cfg value

/-- Whether a value of the form is a file or a group with a file. -/
def hasFileUpload : Json → Bool
  | .arr items => items.any isFileEntry
  | value => isFileEntry value

def formSchema (cfg : Config) : Json → Bool
  | .obj fields =>
      fields.all (fun field => field.1 ≠ "" && formValueSchema cfg field.2) &&
        fields.any fun field => hasFileUpload field.2
  | _ => false

/-- `baseMetadataSchema`: the metadata a client initiates an upload with. -/
def baseMetadataKeys (cfg : Config) : List (String × Schema) :=
  [ ("sbi", required (integer SBI_MIN SBI_MAX)),
    ("crn", required (integer CRN_MIN CRN_MAX)),
    ("frn", required (integer FRN_MIN FRN_MAX)),
    ("submissionId", required anyString),
    ("type", required (valid cfg.cdpUploaderDocumentTypes)),
    ("reference", required anyString),
    ("service", required (valid SERVICE_EXAMPLES)),
    ("uosr", required anyString) ]

def baseMetadataSchema (cfg : Config) : Json → Bool := object (baseMetadataKeys cfg)

/-- The metadata of a callback may carry a journey identifier of any shape. -/
def callbackMetadataSchema (cfg : Config) : Json → Bool :=
  object (baseMetadataKeys cfg ++ [(journeyIdKey, optional anything)])

/-- The number of rejected files may accompany a ready upload only. -/
def numberOfRejectedFiles (uploadStatus : Option Json) : Schema :=
  if uploadStatus = some (.str "pending") ∨ uploadStatus = some (.str "initiated") then forbidden
  else optional (integer 0 maxSafeInteger)

def callbackPayloadSchema (cfg : Config) (body : Json) : Bool :=
  object
    [ ("uploadStatus", required (valid ["initiated", "pending", "ready"])),
      ("metadata", required (callbackMetadataSchema cfg)),
      ("form", required (formSchema cfg)),
      ("numberOfRejectedFiles", numberOfRejectedFiles (body.get? "uploadStatus")) ] body

/-- The validated payload: the number of rejected files defaults to zero. -/
def validatedPayload : Json → Json
  | .obj fields =>
      if (fields.lookup "numberOfRejectedFiles").isSome then .obj fields
      else .obj (fields ++ [("numberOfRejectedFiles", .int 0)])
  | body => body

/-! ## What an accepted payload holds -/

section Accepted

variable {cfg : Config} {body : Json}

theorem accepted_metadata (accepted : callbackPayloadSchema cfg body = true) :
    ∃ metadata, body.get? "metadata" = some metadata ∧
      callbackMetadataSchema cfg metadata = true := by
  have admitted : (required (callbackMetadataSchema cfg)).admits (body.get? "metadata") = true :=
    object_key accepted (by simp)
  exact admits_required admitted

theorem accepted_form (accepted : callbackPayloadSchema cfg body = true) :
    ∃ fields, body.get? "form" = some (.obj fields) ∧ formSchema cfg (.obj fields) = true := by
  have admitted : (required (formSchema cfg)).admits (body.get? "form") = true :=
    object_key accepted (by simp)
  obtain ⟨form, found, valid⟩ := admits_required admitted
  cases form with
  | obj fields => exact ⟨fields, found, valid⟩
  | _ => simp [formSchema] at valid

/-- Defaults leave the other fields of the payload alone. -/
theorem validatedPayload_get? (body : Json) {name : String}
    (other : name ≠ "numberOfRejectedFiles") :
    (validatedPayload body).get? name = body.get? name := by
  cases body with
  | obj fields =>
      rw [validatedPayload]
      split
      · rfl
      · simp only [Json.get?_obj, List.lookup_append]
        cases fields.lookup name with
        | some value => rfl
        | none => simp [List.lookup_cons, beq_eq_false_iff_ne.mpr other]
  | _ => rfl

end Accepted

/-- Every value of an accepted form, and every item of its groups, is a text or
an accepted file. -/
theorem formSchema_flat {cfg : Config} {fields : List (String × Json)}
    (accepted : formSchema cfg (.obj fields) = true) {value : Json}
    (member : value ∈ Json.flat (Json.obj fields).values) :
    (∃ text, value = .str text) ∨ fileUploadSchema cfg value = true := by
  simp only [formSchema, Bool.and_eq_true, List.all_eq_true] at accepted
  obtain ⟨field, isField, inFlat⟩ := Json.mem_flat_values.mp member
  have valid := (accepted.1 field isField).2
  obtain ⟨name, content⟩ := field
  cases content with
  | str text =>
      simp only [Json.flat, List.flatMap_cons, List.flatMap_nil, List.append_nil,
        List.mem_singleton] at inFlat
      exact Or.inl ⟨text, inFlat⟩
  | arr items =>
      simp only [Json.flat, List.flatMap_cons, List.flatMap_nil, List.append_nil] at inFlat
      simp only [formValueSchema, List.all_eq_true] at valid
      exact Or.inr (valid value inFlat)
  | _ =>
      simp only [Json.flat, List.flatMap_cons, List.flatMap_nil, List.append_nil,
        List.mem_singleton] at inFlat
      subst inFlat
      exact Or.inr valid

end ObjectProcessor
