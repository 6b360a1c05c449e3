import ObjectProcessor.Metadata.Document

/-!
# Status records

One record is written for every file of a callback: a validated one together
with the document, or a failed one that carries the validation errors.
-/

namespace ObjectProcessor

/-- One item of the `details` of a schema error. -/
structure ErrorDetail where
  path : Option (List String)
  type : Option String
  value : Option Json
  deriving DecidableEq

/-- The error a callback is rejected with. -/
structure ValidationError where
  message : Option String
  details : Option (List ErrorDetail)
  deriving DecidableEq

/-- `new Error(message)` -/
def ValidationError.ofMessage (message : String) : ValidationError :=
  { message := some message, details := none }

structure StatusError where
  field : String
  errorType : String
  receivedValue : String
  deriving DecidableEq, Repr

/-- A document of the status collection. -/
structure StatusRecord where
  correlationId : String
  sbi : Option Json
  fileId : Json
  timestamp : Time
  validated : Bool
  errors : Option (List StatusError)
  deriving DecidableEq

def sanitiseReceivedValue : Option Json → String
  | none => ""
  | some .null => ""
  | some (.str text) => Json.sliceText 256 text
  | some (.num value) => (Json.num value).text
  | some (.bool value) => (Json.bool value).text
  | some _ => "[complex value]"

def buildFallbackValidationError (validationError : ValidationError) : StatusError :=
  let message :=
    match validationError.message with
    | some text => if text = "" then "Validation failed" else text
    | none => "Validation failed"
  { field := "payload", errorType := Json.sliceText 256 message, receivedValue := "" }

def mapValidationErrors (validationError : ValidationError) : List StatusError :=
  match validationError.details with
  | none => [buildFallbackValidationError validationError]
  | some details => details.map fun detail =>
      { field := (detail.path.map ".".intercalate).getD "unknown"
        errorType := detail.type.getD "unknown"
        receivedValue := sanitiseReceivedValue detail.value }

/-- `payload?.metadata?.[name]`. -/
def metadataField (payload : Json) (name : String) : Option Json :=
  (payload.get? "metadata").bind (Json.get? · name)

def getSbiFromPayload (payload : Json) : Json :=
  match metadataField payload "sbi" with
  | some sbi => if sbi.isInteger then sbi else .null
  | none => .null

def buildValidatedStatusDocuments (now : Time) (documents : List InboundDocument) :
    List StatusRecord :=
  documents.map fun document =>
    { correlationId := document.messaging.correlationId
      sbi := document.metadata.get? "sbi"
      fileId := document.file.fileId
      timestamp := now
      validated := true
      errors := none }

/-- A text that is not empty. -/
def nonEmptyText? : Option Json → Option String
  | some (.str text) => if text = "" then none else some text
  | _ => none

theorem nonEmptyText?_eq_some {value : Option Json} {text : String} :
    nonEmptyText? value = some text ↔ value = some (.str text) ∧ text ≠ "" := by
  unfold nonEmptyText?
  split
  · rename_i found
    by_cases empty : found = ""
    · simp [empty]
    · simp only [empty, ↓reduceIte, Option.some.injEq, Json.str.injEq]
      exact ⟨fun same => ⟨same, same ▸ empty⟩, And.left⟩
  · rename_i other
    simp only [reduceCtorEq, false_iff, not_and]
    rintro rfl
    exact absurd rfl (other text)

/-- The file identifiers of a payload, or `unknown` when it has none. -/
def extractFileIdsFromPayload (payload : Json) : List String :=
  let fileIds := ((flattenFormValues (payload.get? "form")).filter Json.isObject).filterMap
    fun value => nonEmptyText? (value.get? "fileId")
  if fileIds = [] then ["unknown"] else fileIds

def buildValidationFailureStatusDocuments (now : Time) (payload : Json)
    (validationError : ValidationError) (correlationId : String) : List StatusRecord :=
  (extractFileIdsFromPayload payload).map fun fileId =>
    { correlationId
      sbi := some (getSbiFromPayload payload)
      fileId := .str fileId
      timestamp := now
      validated := false
      errors := some (mapValidationErrors validationError) }

/-- The error says which field it is about and what is wrong with it. -/
def StatusError.Named (error : StatusError) : Prop := error.field ≠ "" ∧ error.errorType ≠ ""

/-- The name of a path starts with its first key. -/
theorem intercalate_ne_empty {key : String} {rest : List String} (nonempty : key ≠ "") :
    ".".intercalate (key :: rest) ≠ "" := by
  cases rest with
  | nil => rwa [String.intercalate_singleton]
  | cons next rest =>
      rw [String.intercalate_cons_cons]
      intro empty
      exact nonempty (String.append_eq_empty_iff.mp (String.append_eq_empty_iff.mp empty).1).1

theorem mapValidationErrors_ofMessage_named {message : String} {error : StatusError}
    (member : error ∈ mapValidationErrors (.ofMessage message)) : error.Named := by
  cases List.mem_singleton.mp member
  refine ⟨show ("payload" : String) ≠ "" by decide, Json.sliceText_ne_empty (by decide) ?_⟩
  simp only [ValidationError.ofMessage]
  split
  · decide
  · assumption

/-- Errors whose paths start with a name, and that have a type, are named. -/
theorem mapValidationErrors_named {validationError : ValidationError} {details : List ErrorDetail}
    (detailed : validationError.details = some details)
    (named : ∀ detail ∈ details, (∃ type, detail.type = some type ∧ type ≠ "") ∧
      ∃ key rest, detail.path = some (key :: rest) ∧ key ≠ "") {error : StatusError}
    (member : error ∈ mapValidationErrors validationError) : error.Named := by
  simp only [mapValidationErrors, detailed] at member
  obtain ⟨detail, listed, rfl⟩ := List.mem_map.mp member
  obtain ⟨⟨type, hasType, nonempty⟩, key, rest, hasPath, isName⟩ := named detail listed
  exact ⟨by simpa [hasPath] using intercalate_ne_empty isName, by simpa [hasType] using nonempty⟩

theorem extractFileIdsFromPayload_ne_nil (payload : Json) :
    extractFileIdsFromPayload payload ≠ [] := by
  rw [extractFileIdsFromPayload]
  split
  · simp
  · assumption

end ObjectProcessor
