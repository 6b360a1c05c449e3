import ObjectProcessor.Callback.Schema

/-!
# Validation after the schema

Three stages follow the schema: the upload must be ready, every file must be
complete, and every file must be consistent with its status.  A stage yields the
message of its error; nothing means the payload passes.
-/

namespace ObjectProcessor

open Schema

/-- `!value` of a property that may be absent. -/
def falsy (value : Option Json) : Bool := !value.any Json.truthy

def validateChecksumFormat (checksumSha256 : Option Json) : Option String :=
  if falsy checksumSha256 then some "checksumSha256 is required"
  else if base64Pattern (Json.templateText checksumSha256) then none
  else some "checksumSha256 must be valid base64"

/-- `value > 0` for a finite number. -/
def isPositiveFinite : Option Json → Bool
  | some (.num (.finite value)) => 0 < value
  | _ => false

def validateCompleteFile (fileObject : Json) : Option String :=
  if falsy (fileObject.get? "s3Key") then some "s3Key is required for complete files"
  else if falsy (fileObject.get? "s3Bucket") then some "s3Bucket is required for complete files"
  else if falsy (fileObject.get? "checksumSha256") then
    some "checksumSha256 is required for complete files"
  else if !isPositiveFinite (fileObject.get? "contentLength") then
    some "contentLength must be > 0 for complete files"
  else if fileObject.hasField "hasError" then some "hasError must not be present for complete files"
  else if fileObject.hasField "errorMessage" then
    some "errorMessage must not be present for complete files"
  else validateChecksumFormat (fileObject.get? "checksumSha256")

/-- `text.trim().length === 0`: what is trimmed is what `\s` matches. -/
def isBlank (text : String) : Bool := text.toList.all Json.isSpace

def validateErrorMessageFormat : Option Json → Option String
  | some (.str text) => if isBlank text then some "errorMessage cannot be empty" else none
  | _ => some "errorMessage must be a string"

def validateRejectedFile (fileObject : Json) : Option String :=
  if !fileObject.hasField "hasError" then some "hasError is required for rejected files"
  else if fileObject.get? "hasError" ≠ some (.bool true) then
    some "hasError must be true for rejected files"
  else if !fileObject.hasField "errorMessage" then
    some "errorMessage is required for rejected files"
  else
    match validateErrorMessageFormat (fileObject.get? "errorMessage") with
    | some error => some error
    | none =>
        if fileObject.hasField "s3Key" then some "s3Key must not be present for rejected files"
        else if fileObject.hasField "s3Bucket" then
          some "s3Bucket must not be present for rejected files"
        else if fileObject.hasField "checksumSha256" then
          some "checksumSha256 must not be present for rejected files"
        else none

def validateFileUploadConsistency (fileObject : Json) : Option String :=
  let fileStatus := fileObject.get? "fileStatus"
  if falsy fileStatus then some "fileStatus is required"
  else if fileStatus = some (.str "complete") then validateCompleteFile fileObject
  else if fileStatus = some (.str "rejected") then validateRejectedFile fileObject
  else if fileStatus = some (.str "pending") then none
  else
    some ("fileStatus must be one of 'complete', 'rejected', 'pending' but was '" ++
      Json.templateText fileStatus ++ "'")

/-- The error of the first inconsistent file. -/
def validateFormFiles (form : Option Json) : Option String :=
  ((flattenFormValues form).filter isFileEntry).findSome? validateFileUploadConsistency

/-- The error of the first file that is not complete. -/
def validateFilesComplete (form : Option Json) : Option String :=
  (((flattenFormValues form).filter isFileEntry).find? fun file =>
      file.get? "fileStatus" ≠ some (.str "complete")).map fun file =>
    "fileStatus must be 'complete' but was '" ++
      Json.templateText (file.get? "fileStatus") ++ "'"

/-- The validation error `validateCallbackPayload` hands on, if any. -/
def validateCallbackPayload (payload : Json) : Option String :=
  let uploadStatus := payload.get? "uploadStatus"
  if uploadStatus ≠ some (.str "ready") then
    some ("uploadStatus must be 'ready' but was '" ++ Json.templateText uploadStatus ++ "'")
  else
    match validateFilesComplete (payload.get? "form") with
    | some error => some error
    | none => validateFormFiles (payload.get? "form")

/-- A payload that passes is ready, and all its files are complete and consistent. -/
theorem validateCallbackPayload_eq_none {payload : Json} :
    validateCallbackPayload payload = none ↔
      payload.get? "uploadStatus" = some (.str "ready") ∧
        ∀ file ∈ flattenFormValues (payload.get? "form"), isFileEntry file = true →
          file.get? "fileStatus" = some (.str "complete") ∧
            validateFileUploadConsistency file = none := by
  by_cases ready : payload.get? "uploadStatus" = some (.str "ready")
  · simp only [validateCallbackPayload, ready, ne_eq, not_true_eq_false, ↓reduceIte, true_and]
    constructor
    · intro passed
      split at passed
      · cases passed
      · rename_i complete
        simp only [validateFilesComplete, Option.map_eq_none_iff, List.find?_eq_none,
          List.mem_filter, decide_eq_true_eq, ne_eq, Decidable.not_not, and_imp] at complete
        simp only [validateFormFiles, List.findSome?_eq_none_iff, List.mem_filter,
          and_imp] at passed
        exact fun file member isFile => ⟨complete file member isFile, passed file member isFile⟩
    · intro each
      have complete : validateFilesComplete (payload.get? "form") = none := by
        simp only [validateFilesComplete, Option.map_eq_none_iff, List.find?_eq_none,
          List.mem_filter, decide_eq_true_eq, ne_eq, Decidable.not_not, and_imp]
        exact fun file member isFile => (each file member isFile).1
      rw [complete]
      simp only [validateFormFiles, List.findSome?_eq_none_iff, List.mem_filter, and_imp]
      exact fun file member isFile => (each file member isFile).2
  · simp [validateCallbackPayload, ready]

end ObjectProcessor
