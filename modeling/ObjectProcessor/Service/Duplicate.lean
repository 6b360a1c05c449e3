import ObjectProcessor.Callback.FormFidelity
import ObjectProcessor.Service.Invariant

/-!
# Duplicate callbacks

A transaction is refused as a whole when any of its files is stored already, but
the answer is decided by the first file alone.  A payload whose first file is
stored and another is not is answered as a duplicate, and the other file is lost.
-/

namespace ObjectProcessor

open Library

variable {cfg : Config} {store : Store} {payload : Json} {correlationId : String}

/-- A document of the file is stored. -/
def IsStored (metadata : List MetadataDocument) (fileId : Json) : Prop :=
  ∃ stored ∈ metadata, stored.fileId = fileId

instance (metadata : List MetadataDocument) (fileId : Json) :
    Decidable (IsStored metadata fileId) :=
  inferInstanceAs (Decidable (∃ stored ∈ metadata, stored.fileId = fileId))

/-- The unique index refuses the batch. -/
def Conflicts (metadata : List MetadataDocument) (payload : Json) : Prop :=
  ¬ (normalisedFileIds payload).Nodup ∨
    ∃ fileId ∈ normalisedFileIds payload, IsStored metadata fileId

instance (metadata : List MetadataDocument) (payload : Json) :
    Decidable (Conflicts metadata payload) :=
  inferInstanceAs (Decidable (¬ _ ∨ ∃ fileId ∈ normalisedFileIds payload, _))

theorem hasDuplicateKey_iff (store : Store) {documents : List InboundDocument}
    (formatted : formatInboundMetadata cfg payload correlationId = some documents) :
    hasDuplicateKey store.metadata documents = true ↔ Conflicts store.metadata payload := by
  rw [Conflicts, ← map_fileId_of_formatted formatted]
  simp [hasDuplicateKey, IsStored]

/-- The lookup on the duplicate path finds a document exactly when one is stored. -/
theorem getMetadataByFileId_eq_none {metadata : List MetadataDocument} {fileId : Json} :
    getMetadataByFileId metadata fileId = none ↔ ¬ IsStored metadata fileId := by
  simp [getMetadataByFileId, IsStored]

/-- The duplicate path resolves exactly when its lookup runs and finds the first file. -/
theorem resolveDuplicate_ne_rejected {env : CallbackEnv} :
    resolveDuplicate env store payload ≠ .rejected ↔
      env.duplicateLookupFails = false ∧ ∃ first,
        (payloadFileIds payload).head? = some first ∧ IsStored store.metadata first := by
  unfold resolveDuplicate
  cases files : payloadFileIds payload with
  | nil => simp
  | cons first rest =>
      cases fails : env.duplicateLookupFails with
      | true => simp
      | false =>
          cases found : getMetadataByFileId store.metadata first with
          | none => simpa [found] using getMetadataByFileId_eq_none.mp found
          | some existing =>
              have stored : IsStored store.metadata first := by
                by_contra absent
                rw [getMetadataByFileId_eq_none.mpr absent] at found
                cases found
              simpa [found] using stored

/-- The files stored once a batch is committed. -/
theorem isStored_commitDocuments {env : CallbackEnv} {documents : List InboundDocument}
    (formatted : formatInboundMetadata cfg payload correlationId = some documents) {fileId : Json} :
    IsStored (commitDocuments env store documents).metadata fileId ↔
      fileId ∈ normalisedFileIds payload ∨ IsStored store.metadata fileId := by
  have files := map_withIds (fun document => document.file.fileId) env.documentId documents
  rw [map_fileId_of_formatted formatted] at files
  rw [← files]
  simp only [IsStored, commitDocuments, List.mem_append, List.mem_map]
  constructor
  · rintro ⟨stored, old | new, same⟩
    · exact Or.inr ⟨stored, old, same⟩
    · exact Or.inl ⟨stored, new, same⟩
  · rintro (⟨stored, new, same⟩ | ⟨stored, old, same⟩)
    · exact ⟨stored, Or.inr new, same⟩
    · exact ⟨stored, Or.inl old, same⟩

/-- What persisting comes to, once the documents are known. -/
theorem persistMetadataWithOutbox_eq (env : CallbackEnv) (store : Store)
    {documents : List InboundDocument}
    (formatted : formatInboundMetadata cfg payload correlationId = some documents)
    (nonempty : documents ≠ []) :
    persistMetadataWithOutbox cfg env store payload correlationId =
      if env.transactionFails then (.rejected, store)
      else if hasDuplicateKey store.metadata documents then
        (resolveDuplicate env store payload, store)
      else
        (.inserted ((List.range documents.length).map env.documentId),
          commitDocuments env store documents) := by
  unfold persistMetadataWithOutbox
  rw [formatted]
  cases documents with
  | nil => exact absurd rfl nonempty
  | cons first rest => rfl

section Persisting

variable {documents : List InboundDocument}
  (formatted : formatInboundMetadata cfg payload correlationId = some documents)

include formatted

end Persisting

end ObjectProcessor
