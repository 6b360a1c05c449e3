import Mathlib.Computability.Language
import Mathlib.Data.List.TakeWhile
import ObjectProcessor.Callback.Effect

/-!
# The two validators agree

The rules for a complete file are written twice: in the schema, and in the checks
the handler makes afterwards.  Whatever the schema accepts as complete passes those
checks, so what they turn away is only an upload that is not ready or a file that is
not complete.
-/

namespace ObjectProcessor

open Schema
open scoped Computability

/-! ## The regular expressions -/

/-- `[class]` -/
def charClass (members : Char → Bool) : Language Char :=
  { text | ∃ char, members char = true ∧ text = [char] }

/-- `[class]+=*` -/
def paddedClass (members : Char → Bool) : Language Char :=
  charClass members * (charClass members)∗ * (charClass fun char => char = '=')∗

/-- `/^(?:[A-Za-z0-9+/]+=*)$/` -/
def BASE64_STANDARD : Language Char := paddedClass standardAlphabet

/-- `/^(?:[A-Za-z0-9-_]+=*)$/` -/
def BASE64_URL_SAFE : Language Char := paddedClass urlSafeAlphabet

theorem mem_charClass_kstar {members : Char → Bool} {text : List Char} :
    text ∈ (charClass members)∗ ↔ ∀ char ∈ text, members char = true := by
  rw [Language.mem_kstar]
  constructor
  · rintro ⟨parts, rfl, each⟩ char member
    obtain ⟨part, isPart, inPart⟩ := List.mem_flatten.mp member
    obtain ⟨found, isMember, rfl⟩ := each part isPart
    rwa [List.mem_singleton.mp inPart]
  · intro all
    refine ⟨text.map fun char => [char], by simp [← List.flatMap_def], ?_⟩
    intro part isPart
    obtain ⟨char, member, rfl⟩ := List.mem_map.mp isPart
    exact ⟨char, all char member, rfl⟩

/-- A text of the pattern is a text over the class, not empty, and then its padding. -/
theorem mem_paddedClass {members : Char → Bool} {text : List Char} :
    text ∈ paddedClass members ↔ ∃ front padding, text = front ++ padding ∧ front ≠ [] ∧
      (∀ char ∈ front, members char = true) ∧ ∀ char ∈ padding, char = '=' := by
  simp only [paddedClass, Language.mem_mul, mem_charClass_kstar, decide_eq_true_eq]
  constructor
  · rintro ⟨_, ⟨_, ⟨char, isMember, rfl⟩, rest, all, rfl⟩, padding, padded, rfl⟩
    exact ⟨char :: rest, padding, rfl, by simp, List.forall_mem_cons.mpr ⟨isMember, all⟩,
      padded⟩
  · rintro ⟨front, padding, rfl, nonempty, all, padded⟩
    obtain ⟨char, rest, rfl⟩ := List.exists_cons_of_ne_nil nonempty
    rw [List.forall_mem_cons] at all
    exact ⟨_, ⟨_, ⟨char, all.1, rfl⟩, rest, all.2, rfl⟩, padding, padded, rfl⟩

/-- The check that strips the padding first recognises the pattern. -/
theorem isPadded_iff {members : Char → Bool} (unpadded : members '=' = false) (text : String) :
    isPadded members text = true ↔ text.toList ∈ paddedClass members := by
  rw [mem_paddedClass]
  simp only [isPadded, Bool.and_eq_true, Bool.not_eq_true', List.isEmpty_eq_false_iff,
    List.all_eq_true]
  constructor
  · rintro ⟨nonempty, all⟩
    refine ⟨(text.toList.reverse.dropWhile fun char => char = '=').reverse,
      (text.toList.reverse.takeWhile fun char => char = '=').reverse, ?_, by simpa using nonempty,
      fun char member => all char (List.mem_reverse.mp member), fun char member => ?_⟩
    · rw [← List.reverse_append, List.takeWhile_append_dropWhile, List.reverse_reverse]
    · have isPad := List.mem_takeWhile_imp (List.mem_reverse.mp member)
      exact of_decide_eq_true isPad
  · rintro ⟨front, padding, same, nonempty, all, padded⟩
    have stripped : (text.toList.reverse.dropWhile fun char => char = '=') = front.reverse := by
      rw [same, List.reverse_append, List.dropWhile_append_of_pos]
      · cases backward : front.reverse with
        | nil => rfl
        | cons last rest =>
            have isMember : members last = true :=
              all last (List.mem_reverse.mp (backward ▸ List.mem_cons_self ..))
            refine List.dropWhile_cons_of_neg ?_
            intro isPad
            rw [of_decide_eq_true isPad, unpadded] at isMember
            cases isMember
      · intro char member
        exact decide_eq_true (padded char (List.mem_reverse.mp member))
    rw [stripped]
    exact ⟨by simpa using nonempty, fun char member => all char (List.mem_reverse.mp member)⟩

/-- The one pattern of the schema accepts what the two patterns of the checks accept. -/
theorem base64Pattern_iff (text : String) :
    base64Pattern text = true ↔ text.toList ∈ BASE64_STANDARD + BASE64_URL_SAFE := by
  rw [base64Pattern, Bool.or_eq_true, isPadded_iff (by decide), isPadded_iff (by decide)]
  rfl

/-! ## Complete files -/

/-- What is guaranteed of a file that passes both validators. -/
structure CompleteFile (file : Json) : Prop where
  s3Key : ∃ text, file.get? "s3Key" = some (.str text) ∧ text ≠ ""
  s3Bucket : ∃ text, file.get? "s3Bucket" = some (.str text) ∧ text ≠ ""
  checksumSha256 : ∃ text, file.get? "checksumSha256" = some (.str text) ∧
    text.toList ∈ BASE64_STANDARD + BASE64_URL_SAFE
  contentLength : ∃ size : Nat, file.get? "contentLength" = some (.int size) ∧ 0 < size
  hasError : file.get? "hasError" = none
  errorMessage : file.get? "errorMessage" = none

theorem forbidden_admits {field : Option Json} (admitted : forbidden.admits field = true) :
    field = none := by
  cases field with
  | none => rfl
  | some value => simp [forbidden, admits] at admitted

/-- What the schema accepts as complete has all that is asked of a complete file. -/
theorem completeFile_of_schema {cfg : Config} {file : Json}
    (accepted : fileUploadSchema cfg file = true)
    (complete : file.get? "fileStatus" = some (.str "complete")) : CompleteFile file := by
  rw [fileUploadSchema, complete] at accepted
  have text (name : String) (rule : String → Bool)
      (member : (name, required (string rule)) ∈
        fileUploadKeys cfg (some (.str "complete"))) :
      ∃ text, file.get? name = some (.str text) ∧ text ≠ "" ∧ rule text = true := by
    obtain ⟨value, found, valid⟩ := admits_required (object_key accepted member)
    obtain ⟨text, rfl, nonempty, holds⟩ := string_eq_true valid
    exact ⟨text, found, nonempty, holds⟩
  have absent {name : String}
      (member : (name, forbidden) ∈ fileUploadKeys cfg (some (.str "complete"))) :
      file.get? name = none := forbidden_admits (object_key accepted member)
  constructor
  case s3Key =>
    obtain ⟨key, found, nonempty, _⟩ := text "s3Key" _ (by simp [fileUploadKeys]; rfl)
    exact ⟨key, found, nonempty⟩
  case s3Bucket =>
    obtain ⟨bucket, found, nonempty, _⟩ := text "s3Bucket" _ (by simp [fileUploadKeys]; rfl)
    exact ⟨bucket, found, nonempty⟩
  case checksumSha256 =>
    obtain ⟨checksum, found, _, matched⟩ :=
      text "checksumSha256" base64Pattern (by simp [fileUploadKeys])
    exact ⟨checksum, found, (base64Pattern_iff checksum).mp matched⟩
  case contentLength =>
    have admitted : (required (integer 1 maxSafeInteger)).admits (file.get? "contentLength") =
        true := object_key accepted (by simp [fileUploadKeys])
    obtain ⟨value, found, valid⟩ := admits_required admitted
    obtain ⟨size, rfl, positive, _⟩ := integer_eq_true valid
    exact ⟨size, found, positive⟩
  case hasError => exact absent (by simp [fileUploadKeys])
  case errorMessage => exact absent (by simp [fileUploadKeys])

/-- Such a file passes the checks of the handler. -/
theorem CompleteFile.consistent {file : Json} (isComplete : CompleteFile file)
    (complete : file.get? "fileStatus" = some (.str "complete")) :
    validateFileUploadConsistency file = none := by
  obtain ⟨key, keyFound, keyNonempty⟩ := isComplete.s3Key
  obtain ⟨bucket, bucketFound, bucketNonempty⟩ := isComplete.s3Bucket
  obtain ⟨checksum, checksumFound, inAlphabet⟩ := isComplete.checksumSha256
  obtain ⟨size, sizeFound, positive⟩ := isComplete.contentLength
  have matched := (base64Pattern_iff checksum).mpr inAlphabet
  have nonempty : checksum ≠ "" := by
    rintro rfl
    revert matched
    decide
  have isPositive : isPositiveFinite (some (.int size)) = true := by
    simp only [isPositiveFinite, Json.int, decide_eq_true_eq]
    exact_mod_cast positive
  simp [validateFileUploadConsistency, validateCompleteFile, validateChecksumFormat, complete,
    keyFound, bucketFound, checksumFound, sizeFound, keyNonempty, bucketNonempty, nonempty,
    isPositive, Json.hasField, isComplete.hasError, isComplete.errorMessage,
    Json.templateText, Json.text, matched, falsy, Json.truthy]

/-! ## Accepted payloads -/

section Accepted

variable {cfg : Config} {body : Json}

/-- A file of an accepted form was accepted as a file. -/
theorem accepted_file (accepted : callbackPayloadSchema cfg body = true) {file : Json}
    (member : file ∈ flattenFormValues (body.get? "form")) (isFile : isFileEntry file = true) :
    fileUploadSchema cfg file = true := by
  obtain ⟨fields, found, valid⟩ := accepted_form accepted
  have listed : file ∈ Json.flat (Json.obj fields).values := by
    rwa [found] at member
  rcases formSchema_flat valid listed with ⟨text, rfl⟩ | isAccepted
  · simp [isFileEntry, Json.isObject] at isFile
  · exact isAccepted

/-- The handler validates a payload with the status and the form of the body. -/
theorem handledPayload_get? (accepted : callbackPayloadSchema cfg body = true) {name : String}
    (plain : Json.arrayIndex? name = none) (other : name ≠ "metadata")
    (another : name ≠ "numberOfRejectedFiles") :
    (handledPayload cfg body).get? name = body.get? name := by
  rw [handledPayload, requestPayload, if_pos accepted,
    strippedPayload_get? (validatedPayload_isObj accepted) plain other,
    validatedPayload_get? body another]

/-- The schema and the checks of the handler agree on every payload the schema accepts. -/
theorem validators_agree (accepted : callbackPayloadSchema cfg body = true) :
    (validateCallbackPayload body = none ↔
      body.get? "uploadStatus" = some (.str "ready") ∧
        ∀ file ∈ flattenFormValues (body.get? "form"), isFileEntry file = true →
          file.get? "fileStatus" = some (.str "complete")) ∧
      (validateCallbackPayload body = none →
        ∀ file ∈ flattenFormValues (body.get? "form"), isFileEntry file = true →
          CompleteFile file) ∧
      -- The handler validates the payload after it has split the journey identifier off.
      validateCallbackPayload (handledPayload cfg body) = validateCallbackPayload body := by
  refine ⟨?_, ?_, ?_⟩
  · rw [validateCallbackPayload_eq_none]
    refine and_congr_right fun _ => ⟨fun each file member isFile => ?_, fun each file member
      isFile => ?_⟩
    · exact (each file member isFile).1
    · have complete := each file member isFile
      have isComplete := completeFile_of_schema (accepted_file accepted member isFile) complete
      exact ⟨complete, isComplete.consistent complete⟩
  · intro passed file member isFile
    have complete := ((validateCallbackPayload_eq_none.mp passed).2 file member isFile).1
    exact completeFile_of_schema (accepted_file accepted member isFile) complete
  · rw [validateCallbackPayload, validateCallbackPayload, handledPayload_form accepted,
      handledPayload_get? accepted (by decide) (by decide) (by decide)]

end Accepted

/-- A file, a text and a group of two files. -/
def Sample.mixedBody : Json :=
  Sample.body
    [ ("document", Sample.file Sample.fileA), ("notes", .str "text"),
      ("group", .arr [Sample.file Sample.fileB, Sample.file Sample.journeyId]) ]

theorem validators_agree_sample :
    callbackPayloadSchema Sample.config Sample.mixedBody = true ∧
      validateCallbackPayload Sample.mixedBody = none ∧
      ∀ file ∈ flattenFormValues (Sample.mixedBody.get? "form"), isFileEntry file = true →
        CompleteFile file := by
  have accepted : callbackPayloadSchema Sample.config Sample.mixedBody = true := by decide
  have passed : validateCallbackPayload Sample.mixedBody = none :=
    (validators_agree accepted).1.mpr (by decide)
  exact ⟨accepted, passed, (validators_agree accepted).2.1 passed⟩

end ObjectProcessor
