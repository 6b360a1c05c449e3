import Mathlib.Data.List.Pairwise
import ObjectProcessor.Callback.Effect

/-!
# Which forms keep their files

Normalisation assigns the values of a form to names in a fresh object.  It keeps
all files, in the order of the form, unless a name is assigned again after a file
or JavaScript lists the names in another order.
-/

namespace ObjectProcessor

open Library Schema

/-- The identifier of a value that is a file. -/
def fileIdOf (value : Json) : Option Json := if hasFileId value then value.get? "fileId" else none

/-- The assignments made while the form of a body is normalised. -/
def formAssignments (body : Json) : List (String × Json) := ((body.get? "form").map rekeyed).getD []

/-- A field is created for every file, and its name is not assigned again. -/
structure NoFileOverwritten (assignments : List (String × Json)) : Prop where
  created : ∀ entry ∈ assignments, hasFileId entry.2 = true → createsField entry = true
  kept : (assignments.filter createsField).Pairwise fun earlier later =>
    hasFileId earlier.2 = true → later.1 ≠ earlier.1

/-- The order in which JavaScript lists names that were assigned in the given one. -/
def listingOrder (names : List String) : List String :=
  (Json.listed (assignAll (names.map fun name => (name, ())))).map Prod.fst

/-- The file assigned under a name. -/
def fileIdUnder (assignments : List (String × Json)) (name : String) : Option Json :=
  ((assignments.filter fun entry => hasFileId entry.2).lookup name).bind fileIdOf

/-- The file a name of the form holds in the end: the last value that was assigned to it. -/
def fileHeldUnder (assignments : List (String × Json)) (name : String) : Option Json :=
  if name = "__proto__" then none else (assignments.reverse.lookup name).bind fileIdOf

/-- The files come in the same order when their names are listed by JavaScript. -/
def ListedInFormOrder (assignments : List (String × Json)) : Prop :=
  (listingOrder ((assignments.filter createsField).map Prod.fst)).filterMap
      (fileIdUnder assignments) =
    (assignments.map Prod.snd).filterMap fileIdOf

theorem fileIdOf_isSome (value : Json) : (fileIdOf value).isSome = hasFileId value := by
  unfold fileIdOf
  cases isFile : hasFileId value with
  | false => rfl
  | true =>
      simp only [hasFileId, Bool.and_eq_true, Option.any_eq_true] at isFile
      obtain ⟨_, fileId, found, _⟩ := isFile
      simp [found]

theorem length_filterMap_fileIdOf (values : List Json) :
    (values.filterMap fileIdOf).length = values.countP hasFileId := by
  rw [List.length_filterMap_eq_countP]
  exact List.countP_congr fun value _ => by rw [fileIdOf_isSome]

/-- The last value under a name is the file assigned to it, if any was. -/
theorem lookup_reverse_bind_fileIdOf {assignments : List (String × Json)}
    (kept : assignments.Pairwise fun earlier later =>
      hasFileId earlier.2 = true → later.1 ≠ earlier.1) (name : String) :
    (assignments.reverse.lookup name).bind fileIdOf = fileIdUnder assignments name := by
  unfold fileIdUnder
  induction assignments with
  | nil => rfl
  | cons entry rest ih =>
      obtain ⟨apart, others⟩ := List.pairwise_cons.mp kept
      rw [List.reverse_cons, List.lookup_append]
      cases isFile : hasFileId entry.2 with
      | true =>
          rw [List.filter_cons_of_pos (by simpa using isFile), lookup_cons_eq]
          by_cases same : name = entry.1
          · have unassigned : rest.reverse.lookup name = none :=
              lookup_eq_none fun later member =>
                same ▸ apart later (List.mem_reverse.mp member) isFile
            rw [unassigned, lookup_cons_eq, if_pos same, if_pos same]
            rfl
          · simpa [lookup_cons_eq, same] using ih others
      | false =>
          have noFile : fileIdOf entry.2 = none := by simp [fileIdOf, isFile]
          rw [List.filter_cons_of_neg (by simp [isFile]), ← ih others, lookup_cons_eq]
          cases rest.reverse.lookup name with
          | some value => rfl
          | none =>
              by_cases same : name = entry.1
              · simp [same, noFile]
              · simp [same]

/-- The identifiers of the files among some values. -/
theorem map_fileId_filter (values : List Json) :
    ((values.filter hasFileId).map fun file => (file.get? "fileId").getD .null) =
      values.filterMap fileIdOf := by
  induction values with
  | nil => rfl
  | cons value rest ih =>
      cases isFile : hasFileId value with
      | false =>
          rw [List.filter_cons_of_neg (by simp [isFile]), ih,
            List.filterMap_cons_none (by simp [fileIdOf, isFile])]
      | true =>
          obtain ⟨fileId, found⟩ := Option.isSome_iff_exists.mp
            ((fileIdOf_isSome value).trans isFile)
          have named : value.get? "fileId" = some fileId := by
            rwa [fileIdOf, if_pos isFile] at found
          rw [List.filter_cons_of_pos isFile, List.map_cons, ih, List.filterMap_cons_some found,
            named]
          rfl

section Form

variable {body form : Json}

/-- The identifiers of the normalised files, in the order of their values. -/
theorem normalisedFileIds_eq_values (found : body.get? "form" = some form)
    (isObject : form.isObject = true) :
    normalisedFileIds body =
      ((Json.listed (assignAll ((formAssignments body).filter createsField))).map
        Prod.snd).filterMap fileIdOf := by
  rw [normalisedFileIds, found, normalisedFiles_eq isObject, map_fileId_filter, formAssignments,
    found]
  rfl

/-- The identifiers of the normalised files, read name by name. -/
theorem normalisedFileIds_eq_names (found : body.get? "form" = some form)
    (isObject : form.isObject = true) :
    normalisedFileIds body =
      (listingOrder (((formAssignments body).filter createsField).map Prod.fst)).filterMap
        fun name =>
          (((formAssignments body).filter createsField).reverse.lookup name).bind fileIdOf := by
  rw [normalisedFileIds_eq_values found isObject,
    ← filterMap_lookup (nodup_keys_assignAll _) (Json.listed_perm _)]
  have names : (Json.listed (assignAll ((formAssignments body).filter createsField))).map Prod.fst =
      listingOrder (((formAssignments body).filter createsField).map Prod.fst) := by
    unfold listingOrder
    apply Json.map_fst_listed_congr
    apply map_fst_assignAll
    rw [List.map_map, List.map_map]
    rfl
  rw [names]
  apply List.filterMap_congr
  intro name _
  rw [lookup_assignAll]

/-- As many files are normalised as are assigned exactly when none is overwritten. -/
theorem length_normalisedFileIds_iff (found : body.get? "form" = some form)
    (isObject : form.isObject = true) :
    (normalisedFileIds body).length =
        (((formAssignments body).map Prod.snd).filterMap fileIdOf).length ↔
      NoFileOverwritten (formAssignments body) := by
  rw [normalisedFileIds_eq_values found isObject, length_filterMap_fileIdOf,
    length_filterMap_fileIdOf, List.countP_map, List.countP_map,
    ((Json.listed_perm _).trans (assignAll_perm_survivors _)).countP_eq]
  generalize formAssignments body = assignments
  have fewer := countP_survivors_le (hasFileId ∘ Prod.snd) (assignments.filter createsField)
  have kept := countP_survivors_eq_iff (hasFileId ∘ Prod.snd) (assignments.filter createsField)
  have created : (assignments.filter createsField).countP (hasFileId ∘ Prod.snd) =
      assignments.countP (hasFileId ∘ Prod.snd) ↔
        ∀ entry ∈ assignments, hasFileId entry.2 = true → createsField entry = true := by
    rw [List.countP_eq_length_filter, List.countP_eq_length_filter, List.filter_comm,
      List.length_filter_eq_length_iff]
    simp
  have bound : (assignments.filter createsField).countP (hasFileId ∘ Prod.snd) ≤
      assignments.countP (hasFileId ∘ Prod.snd) := List.filter_sublist.countP_le
  constructor
  · intro same
    exact ⟨created.mp (by omega), kept.mp (by omega)⟩
  · rintro ⟨allCreated, allKept⟩
    exact (kept.mpr allKept).trans (created.mpr allCreated)

/-- Normalisation keeps the files of a form, in order, exactly when no file is
overwritten and the names are listed in the order of the form. -/
theorem normalisedFileIds_eq_iff (found : body.get? "form" = some form)
    (isObject : form.isObject = true) :
    normalisedFileIds body = ((formAssignments body).map Prod.snd).filterMap fileIdOf ↔
      NoFileOverwritten (formAssignments body) ∧ ListedInFormOrder (formAssignments body) := by
  have sameFiles (created : ∀ entry ∈ formAssignments body, hasFileId entry.2 = true →
      createsField entry = true) (name : String) :
      fileIdUnder ((formAssignments body).filter createsField) name =
        fileIdUnder (formAssignments body) name := by
    unfold fileIdUnder
    rw [List.filter_filter]
    congr 2
    apply List.filter_congr
    intro entry member
    cases isFile : hasFileId entry.2 with
    | false => rfl
    | true => rw [created entry member isFile]; rfl
  have named (whole : NoFileOverwritten (formAssignments body)) : normalisedFileIds body =
      (listingOrder (((formAssignments body).filter createsField).map Prod.fst)).filterMap
        (fileIdUnder (formAssignments body)) := by
    rw [normalisedFileIds_eq_names found isObject]
    apply List.filterMap_congr
    intro name _
    rw [lookup_reverse_bind_fileIdOf whole.kept, sameFiles whole.created]
  constructor
  · intro same
    have whole := (length_normalisedFileIds_iff found isObject).mp (congrArg List.length same)
    exact ⟨whole, (named whole).symm.trans same⟩
  · rintro ⟨whole, inOrder⟩
    exact (named whole).trans inOrder

/-- No value of a form that is no object is a file. -/
theorem not_hasFileId_of_rekeyed (noObject : form.isObject = false) :
    ∀ entry ∈ rekeyed form, hasFileId entry.2 = false := by
  cases form with
  | arr => cases noObject
  | obj => cases noObject
  | str text =>
      intro entry member
      obtain ⟨field, inText, assigned⟩ := List.mem_flatMap.mp member
      obtain ⟨unit, _, rfl⟩ := List.mem_map.mp inText
      rw [List.mem_singleton.mp assigned]
      rfl
  | _ => simp [rekeyed, Json.entries]

/-- The normalised files are those of the record the assignments leave. -/
theorem normalisedFileIds_perm (body : Json) :
    (normalisedFileIds body).Perm
      ((assignAll ((formAssignments body).filter createsField)).filterMap fun entry =>
        fileIdOf entry.2) := by
  cases found : body.get? "form" with
  | none =>
      rw [normalisedFileIds, formAssignments, found]
      exact List.Perm.refl _
  | some form =>
      cases isObject : form.isObject with
      | true =>
          rw [normalisedFileIds_eq_values found isObject, List.filterMap_map]
          exact (Json.listed_perm _).filterMap _
      | false =>
          have noFile := not_hasFileId_of_rekeyed isObject
          have noValue : ∀ value ∈ form.values, hasFileId value = false := by
            intro value member
            cases form with
            | arr => cases isObject
            | obj => cases isObject
            | str text =>
                obtain ⟨entry, inText, rfl⟩ := List.mem_map.mp member
                obtain ⟨unit, _, rfl⟩ := List.mem_map.mp inText
                rfl
            | _ => simp [Json.values, Json.entries] at member
          have none : normalisedFileIds body = [] := by
            rw [normalisedFileIds, found, normalisedFiles, normaliseFormFields, isObject]
            simpa using noValue
          have empty : ((assignAll ((formAssignments body).filter createsField)).filterMap
              fun entry => fileIdOf entry.2) = [] := by
            refine List.filterMap_eq_nil_iff.mpr fun entry member => ?_
            have assigned : entry ∈ formAssignments body :=
              (List.mem_filter.mp ((survivors_sublist _).subset
                ((assignAll_perm_survivors _).mem_iff.mp member))).1
            rw [formAssignments, found] at assigned
            rw [fileIdOf, if_neg (by simp [noFile entry assigned])]
          rw [none, empty]

/-- The record holds under a name what was assigned to it last. -/
theorem fileHeldUnder_eq (assignments : List (String × Json)) (name : String) :
    fileHeldUnder assignments name =
      ((assignAll (assignments.filter createsField)).lookup name).bind fileIdOf := by
  rw [lookup_assignAll, ← List.filter_reverse, fileHeldUnder]
  by_cases proto : name = "__proto__"
  · rw [if_pos proto, lookup_eq_none]
    · rfl
    · intro entry member same
      have creates := (List.mem_filter.mp member).2
      rw [createsField, same, proto] at creates
      cases creates
  · rw [if_neg proto]
    exact congrArg (Option.bind · fileIdOf)
      (lookup_filter (fun key => decide (key ≠ "__proto__")) (by simp [proto]) _).symm

theorem fileHeldUnder_eq_some {assignments : List (String × Json)} {name : String}
    {fileId : Json} :
    fileHeldUnder assignments name = some fileId ↔
      ∃ value, (name, value) ∈ assignAll (assignments.filter createsField) ∧
        fileIdOf value = some fileId := by
  rw [fileHeldUnder_eq, Option.bind_eq_some_iff]
  refine exists_congr fun value => and_congr_left fun _ => ?_
  constructor
  · intro found
    obtain ⟨front, rest, same, _⟩ := List.lookup_eq_some_iff.mp found
    simp [same]
  · exact fun member => lookup_of_mem (nodup_keys_assignAll _) member

/-- A file is normalised exactly when some name holds it. -/
theorem mem_normalisedFileIds_iff {fileId : Json} : fileId ∈ normalisedFileIds body ↔
    ∃ name, fileHeldUnder (formAssignments body) name = some fileId := by
  rw [(normalisedFileIds_perm body).mem_iff, List.mem_filterMap, Prod.exists]
  simp only [fileHeldUnder_eq_some]

end Form

/-! ## Forms the schema has accepted -/

/-- A file the schema accepts names itself by a text that is not empty. -/
theorem fileId_of_schema {cfg : Config} {file : Json}
    (accepted : fileUploadSchema cfg file = true) :
    ∃ text, file.get? "fileId" = some (.str text) ∧ text ≠ "" := by
  have key : (required (string cfg.isUuidV4)).admits (file.get? "fileId") = true :=
    object_key accepted (by simp [fileUploadKeys])
  obtain ⟨value, found, isText⟩ := admits_required key
  obtain ⟨text, rfl, nonempty, _⟩ := string_eq_true isText
  exact ⟨text, found, nonempty⟩

/-- What the three readings of a value make of it, when the schema accepts it. -/
theorem readings_agree {cfg : Config} {value : Json}
    (accepted : (∃ text, value = .str text) ∨ fileUploadSchema cfg value = true) :
    isFileEntry value = hasFileId value ∧
      (if value.isObject then nonEmptyText? (value.get? "fileId") else none).map Json.str =
        fileIdOf value := by
  rcases accepted with ⟨text, rfl⟩ | accepted
  · exact ⟨rfl, rfl⟩
  · obtain ⟨text, found, nonempty⟩ := fileId_of_schema accepted
    have isObject := Json.isObject_of_get? found
    have truthy : (Json.str text).truthy = true := by simpa [Json.truthy] using nonempty
    have isFile : hasFileId value = true := by simp [hasFileId, isObject, found, truthy]
    refine ⟨by rw [isFile, isFileEntry_of_hasFileId isFile], ?_⟩
    simp [fileIdOf, isFile, isObject, found, nonEmptyText?, nonempty]

section Accepted

variable {cfg : Config} {body : Json}

theorem formAssignments_values (accepted : callbackPayloadSchema cfg body = true) :
    flattenFormValues (body.get? "form") = (formAssignments body).map Prod.snd := by
  obtain ⟨fields, found, _⟩ := accepted_form accepted
  rw [formAssignments, found, flattenFormValues_eq rfl]
  rfl

theorem readings_of_accepted (accepted : callbackPayloadSchema cfg body = true) :
    ∀ value ∈ (formAssignments body).map Prod.snd,
      (∃ text, value = .str text) ∨ fileUploadSchema cfg value = true := by
  obtain ⟨fields, found, valid⟩ := accepted_form accepted
  intro value member
  rw [← formAssignments_values accepted, found] at member
  exact formSchema_flat valid member

/-- The files of an accepted form are those the later stages validate. -/
theorem payloadFileIds_eq (accepted : callbackPayloadSchema cfg body = true) :
    payloadFileIds (handledPayload cfg body) =
      ((formAssignments body).map Prod.snd).filterMap fileIdOf := by
  rw [payloadFileIds, handledPayload_form accepted, formAssignments_values accepted,
    List.filterMap_filter]
  apply List.filterMap_congr
  intro value member
  rw [(readings_agree (readings_of_accepted accepted value member)).1, fileIdOf]

/-- An accepted form holds a file. -/
theorem files_of_accepted (accepted : callbackPayloadSchema cfg body = true) :
    ((formAssignments body).map Prod.snd).filterMap fileIdOf ≠ [] := by
  obtain ⟨fields, found, valid⟩ := accepted_form accepted
  rw [formSchema, Bool.and_eq_true, List.any_eq_true] at valid
  obtain ⟨field, member, uploads⟩ := valid.2
  obtain ⟨file, inField, isFile⟩ : ∃ file ∈ Json.flat [field.2], isFileEntry file = true := by
    obtain ⟨name, content⟩ := field
    cases content with
    | arr items =>
        simp only [hasFileUpload, List.any_eq_true] at uploads
        simpa [Json.flat] using uploads
    | _ => exact ⟨_, by simp [Json.flat], uploads⟩
  have inForm : file ∈ (formAssignments body).map Prod.snd := by
    rw [← formAssignments_values accepted, found]
    exact Json.mem_flat_values.mpr ⟨field, member, inField⟩
  have named : (fileIdOf file).isSome = true := by
    rw [fileIdOf_isSome, ← (readings_agree (readings_of_accepted accepted file inForm)).1, isFile]
  obtain ⟨fileId, same⟩ := Option.isSome_iff_exists.mp named
  exact List.ne_nil_of_mem (List.mem_filterMap.mpr ⟨file, inForm, same⟩)

/-- The files of an accepted form are those the audit events are emitted for. -/
theorem extractFileIds_eq (accepted : callbackPayloadSchema cfg body = true) :
    (extractFileIdsFromPayload (handledPayload cfg body)).map Json.str =
      ((formAssignments body).map Prod.snd).filterMap fileIdOf := by
  have texts : ((((formAssignments body).map Prod.snd).filter Json.isObject).filterMap
      fun value => nonEmptyText? (value.get? "fileId")).map Json.str =
        ((formAssignments body).map Prod.snd).filterMap fileIdOf := by
    rw [List.map_filterMap, List.filterMap_filter]
    apply List.filterMap_congr
    intro value member
    rw [← (readings_agree (readings_of_accepted accepted value member)).2]
    split <;> rfl
  rw [extractFileIdsFromPayload, handledPayload_form accepted, formAssignments_values accepted]
  split
  · rename_i none
    rw [none] at texts
    exact absurd texts.symm (files_of_accepted accepted)
  · exact texts

/-! ## The documents of an accepted form -/

/-- One document is built for every file entry of the form, in order; each carries
their number, and the same files are audited. -/
structure KeepsFiles (payload : Json) (documents : List InboundDocument) : Prop where
  files : documents.map (fun document => document.file.fileId) = payloadFileIds payload
  count : ∀ document ∈ documents,
    document.messaging.filesInBatch = (payloadFileIds payload).length
  audited : documents.map (fun document => document.file.fileId) =
    (extractFileIdsFromPayload payload).map Json.str

/-- The documents built from an accepted form keep its files exactly when no file is
overwritten and the names are listed in the order of the form. -/
theorem keeps_files_iff {correlationId : String} {documents : List InboundDocument}
    (accepted : callbackPayloadSchema cfg body = true)
    (formatted : formatInboundMetadata cfg (handledPayload cfg body) correlationId =
      some documents) :
    KeepsFiles (handledPayload cfg body) documents ↔
      NoFileOverwritten (formAssignments body) ∧ ListedInFormOrder (formAssignments body) := by
  obtain ⟨fields, found, _⟩ := accepted_form accepted
  have sameForm : (handledPayload cfg body).get? "form" = some (.obj fields) :=
    (handledPayload_form accepted).trans found
  have built : documents.map (fun document => document.file.fileId) = normalisedFileIds body := by
    rw [map_fileId_of_formatted formatted, normalisedFileIds, sameForm, normalisedFileIds, found]
  have counted : ∀ document ∈ documents, document.messaging.filesInBatch = documents.length := by
    unfold formatInboundMetadata at formatted
    split at formatted
    · cases formatted
      intro document member
      obtain ⟨file, _, rfl⟩ := List.mem_map.mp member
      exact (List.length_map _).symm
    · cases formatted
  rw [← normalisedFileIds_eq_iff found rfl, ← payloadFileIds_eq accepted, ← built]
  constructor
  · exact KeepsFiles.files
  · intro files
    refine ⟨files, fun document member => ?_, ?_⟩
    · rw [counted document member, ← files, List.length_map]
    · rw [files, payloadFileIds_eq accepted, extractFileIds_eq accepted]

/-- Names that are pairwise different and no array indices keep every file. -/
theorem plain_names_keep_files (accepted : callbackPayloadSchema cfg body = true)
    (distinct : ((formAssignments body).map Prod.fst).Nodup)
    (plain : ∀ entry ∈ formAssignments body,
      createsField entry = true ∧ Json.arrayIndex? entry.1 = none) :
    NoFileOverwritten (formAssignments body) ∧ ListedInFormOrder (formAssignments body) := by
  obtain ⟨fields, found, _⟩ := accepted_form accepted
  refine (normalisedFileIds_eq_iff found rfl).mp ?_
  have created : (formAssignments body).filter createsField = formAssignments body :=
    List.filter_eq_self.mpr fun entry member => (plain entry member).1
  rw [normalisedFileIds_eq_values found rfl, created, assignAll_of_nodup distinct,
    Json.listed_of_no_index fun entry member => (plain entry member).2]

end Accepted

/-- A group and a single file under another name. -/
def Sample.groupedBody : Json :=
  Sample.body [("group", .arr [Sample.file Sample.fileA]), ("single", Sample.file Sample.fileB)]

theorem keeps_files_iff_sample :
    ∃ documents, formatInboundMetadata Sample.config
        (handledPayload Sample.config Sample.groupedBody) Sample.correlationId = some documents ∧
      KeepsFiles (handledPayload Sample.config Sample.groupedBody) documents := by
  obtain ⟨documents, formatted⟩ : ∃ documents, formatInboundMetadata Sample.config
      (handledPayload Sample.config Sample.groupedBody) Sample.correlationId = some documents :=
    ⟨_, rfl⟩
  have accepted : callbackPayloadSchema Sample.config Sample.groupedBody = true := by decide
  refine ⟨documents, formatted, (keeps_files_iff accepted formatted).mpr ?_⟩
  exact plain_names_keep_files accepted (by decide) (by decide)

/-- The only item of a group is numbered into the name of another field. -/
def Sample.regroupedBody : Json :=
  Sample.body [("doc", .arr [Sample.file Sample.fileA]), ("doc-1", Sample.file Sample.fileB)]

/-- Two files are validated and audited, and one document is built. -/
theorem Sample.regrouped_file_overwritten :
    callbackPayloadSchema Sample.config Sample.regroupedBody = true ∧
      validateCallbackPayload (handledPayload Sample.config Sample.regroupedBody) = none ∧
      extractFileIdsFromPayload (handledPayload Sample.config Sample.regroupedBody) =
        [Sample.fileA, Sample.fileB] ∧
      ∃ documents, formatInboundMetadata Sample.config
          (handledPayload Sample.config Sample.regroupedBody) Sample.correlationId =
            some documents ∧
        documents.map (fun document => document.file.fileId) = [.str Sample.fileB] ∧
        ¬ KeepsFiles (handledPayload Sample.config Sample.regroupedBody) documents := by
  refine ⟨by decide, by decide, by decide, _, rfl, by decide, fun keeps => ?_⟩
  exact absurd keeps.files (by decide)

end ObjectProcessor
