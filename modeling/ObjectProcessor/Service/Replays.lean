import ObjectProcessor.Callback.AllOrNothing
import ObjectProcessor.Service.Duplicate
import ObjectProcessor.Service.Exclusivity
import ObjectProcessor.Service.Links

/-!
# Callbacks that come again

The uploader calls back again when it has missed the answer, after any time and any number of
times.  What an accepted callback has stored is never deleted, so the unique index refuses each
of its replays, and none of them leaves a trace.
-/

namespace ObjectProcessor

open Library

variable {cfg : Config} {system next later : System} {action : Action} {env again : CallbackEnv}
  {store : Store} {body fileId : Json}

/-! ## What is stored stays stored -/

theorem IsStored.step (stored : IsStored system.store.metadata fileId)
    (edge : Edge cfg system action next) : IsStored next.store.metadata fileId := by
  obtain ⟨document, found, same⟩ := stored
  obtain ⟨change, new, spec⟩ := metadataStep_of_edge edge
  exact ⟨change document, spec.mem_fate found, (spec.fileId_eq document).trans same⟩

theorem IsStored.reaches (stored : IsStored system.store.metadata fileId)
    (reach : Reaches (System.step cfg) system later) : IsStored later.store.metadata fileId :=
  reach.induction (motive := fun last => IsStored last.store.metadata fileId) stored
    fun _ _ _ _ holds accepted => holds.step (edge_of_step accepted)

/-- A callback that adds documents has accepted its body, and has stored all of its files. -/
theorem accepted_of_commits (edge : Edge cfg system (.callback env body) next)
    (commits : next.store.metadata ≠ system.store.metadata) :
    (∃ documents, Accepted cfg env system.store body documents) ∧
      ∀ fileId ∈ normalisedFileIds (handledPayload cfg body),
        IsStored next.store.metadata fileId := by
  cases edge with
  | callback past distinct fresh result effect =>
      clear result
      cases effect with
      | unchanged => exact absurd rfl commits
      | failed => exact absurd rfl commits
      | committed documents accepted =>
          exact ⟨⟨documents, accepted⟩, fun fileId member =>
            (isStored_commitDocuments accepted.formatted).mpr (Or.inl member)⟩

/-! ## What a replay does -/

/-- A callback is answered as a duplicate when persisting finds it to be one. -/
theorem duplicateIgnored_iff (again : CallbackEnv) (store : Store)
    (schema : callbackPayloadSchema cfg body = true)
    (valid : validateCallbackPayload (handledPayload cfg body) = none) :
    (uploadCallback cfg again store body).response = .duplicateIgnored ↔
      ∃ correlationId, (persistMetadataWithOutbox cfg again store (handledPayload cfg body)
        (callbackCorrelationId cfg again store body)).1 = .duplicate correlationId := by
  have request : validatedPayload body = requestPayload cfg body := by
    rw [requestPayload, if_pos schema]
  have converts := canConvert_sbi schema
  simp only [handledPayload] at valid
  rw [request] at converts
  simp only [uploadCallback, schema, ↓reduceIte, callbackHandler,
    resolveCallbackCorrelation_payload, request, valid, callbackCorrelationId, handledPayload]
  split
  · rename_i found
    simp [found]
  · rename_i found
    simp [found, answerWithAudits_response, converts]
  · rename_i found
    simp [found, answerWithAudits_response, converts]

/-- The unique index refuses a body one of whose files is stored. -/
theorem store_eq_of_conflicts (schema : callbackPayloadSchema cfg body = true)
    (valid : validateCallbackPayload (handledPayload cfg body) = none)
    (conflicts : Conflicts store.metadata (handledPayload cfg body)) :
    (uploadCallback cfg again store body).store = store := by
  rcases uploadCallback_passed again store schema valid with
    ⟨documents, accepted, _⟩ | ⟨same, _⟩
  · have free : hasDuplicateKey store.metadata documents = false :=
      hasDuplicateKey_eq_false.mpr ⟨accepted.distinct, accepted.fresh⟩
    rw [(hasDuplicateKey_iff store accepted.formatted).mpr conflicts] at free
    cases free
  · exact same

theorem resolveDuplicate_eq_duplicate_iff {payload : Json} :
    (∃ found, resolveDuplicate again store payload = .duplicate found) ↔
      resolveDuplicate again store payload ≠ .rejected := by
  unfold resolveDuplicate
  split
  · simp
  · split
    · simp
    · split <;> simp

/-- How persisting a body the index refuses is answered. -/
theorem persist_duplicate_iff {correlationId : String} {payload : Json}
    (files : normalisedFileIds payload ≠ []) (conflicts : Conflicts store.metadata payload) :
    (∃ found, (persistMetadataWithOutbox cfg again store payload correlationId).1 =
        .duplicate found) ↔
      assertCorrelationId cfg correlationId = true ∧ again.transactionFails = false ∧
        again.duplicateLookupFails = false ∧
        ∃ first, (payloadFileIds payload).head? = some first ∧
          IsStored store.metadata first := by
  cases minted : assertCorrelationId cfg correlationId with
  | false => simp [persistMetadataWithOutbox, formatInboundMetadata, minted]
  | true =>
      obtain ⟨documents, formatted⟩ :
          ∃ documents, formatInboundMetadata cfg payload correlationId = some documents :=
        ⟨_, if_pos minted⟩
      have nonempty : documents ≠ [] := by
        rintro rfl
        exact files (map_fileId_of_formatted formatted).symm
      rw [persistMetadataWithOutbox_eq again store formatted nonempty,
        if_pos ((hasDuplicateKey_iff store formatted).mpr conflicts)]
      cases fails : again.transactionFails with
      | true => simp
      | false =>
          simpa using resolveDuplicate_eq_duplicate_iff.trans resolveDuplicate_ne_rejected

/-! ## Replays -/

/-- A file that was taken in has had one entry, and is never given another. -/
theorem created_once (reachable : Reachable cfg system)
    (stored : IsStored system.store.metadata fileId) :
    (createdEntries system.history).countP (fun entry => entry.fileId = fileId) = 1 := by
  obtain ⟨document, found, rfl⟩ := stored
  obtain ⟨entry, created, same⟩ := reachable.announced found
  have listed : document.fileId ∈ (createdEntries system.history).map OutboxEntry.fileId :=
    same ▸ List.mem_map_of_mem created
  have once := List.count_eq_one_of_mem reachable.agreement.2.createdFiles listed
  rw [List.count, List.countP_map] at once
  rw [← once]
  exact List.countP_congr fun _ _ => by simp

/-- Once a callback was accepted, its body may come again at any time, under any identifiers and
whatever fails: no collection changes.  It is answered as a duplicate exactly when it can be
looked up by its first file, and each file that a name of its form ends up holding has had one
outbox entry. -/
theorem replays_are_absorbed (reachable : Reachable cfg system)
    (accepted : system.step cfg (.callback env body) = some next)
    (commits : next.store.metadata ≠ system.store.metadata)
    (reach : Reaches (System.step cfg) next later) (again : CallbackEnv) :
    (uploadCallback cfg again later.store body).store = later.store ∧
      ((uploadCallback cfg again later.store body).response = .duplicateIgnored ↔
        assertCorrelationId cfg (callbackCorrelationId cfg again later.store body) = true ∧
          again.transactionFails = false ∧ again.duplicateLookupFails = false ∧
          ∃ first, (payloadFileIds (handledPayload cfg body)).head? = some first ∧
            IsStored later.store.metadata first) ∧
      ∀ name fileId, fileHeldUnder (formAssignments body) name = some fileId →
        (createdEntries later.history).countP (fun entry => entry.fileId = fileId) = 1 := by
  obtain ⟨⟨documents, wasAccepted⟩, stored⟩ :=
    accepted_of_commits (edge_of_step accepted) commits
  have schema := wasAccepted.schema
  have valid := wasAccepted.valid
  have files : normalisedFileIds (handledPayload cfg body) ≠ [] := by
    rw [← map_fileId_of_formatted wasAccepted.formatted]
    simpa using wasAccepted.nonempty
  obtain ⟨fileId, member⟩ := List.exists_mem_of_ne_nil _ files
  have conflicts : Conflicts later.store.metadata (handledPayload cfg body) :=
    Or.inr ⟨fileId, member, (stored fileId member).reaches reach⟩
  refine ⟨store_eq_of_conflicts schema valid conflicts,
    (duplicateIgnored_iff again later.store schema valid).trans
      (persist_duplicate_iff files conflicts), fun name fileId held => ?_⟩
  have normalised : fileId ∈ normalisedFileIds (handledPayload cfg body) := by
    refine mem_normalisedFileIds_iff.mpr ⟨name, ?_⟩
    rwa [formAssignments, handledPayload_form schema]
  exact created_once ((reachable.step accepted).reaches reach)
    ((stored fileId normalised).reaches reach)

def Sample.evidenceBody : Json :=
  Sample.body [("document", Sample.file Sample.fileA), ("evidence", Sample.file Sample.fileB)]

/-- The two files of a callback are delivered. -/
def Sample.twoFileDelivery : List Action :=
  [ .callback (Sample.env 1) Sample.evidenceBody,
    .start "worker", .claim "worker" (Sample.objectId 101), .claim "worker" (Sample.objectId 102),
    .claimsDone "worker",
    .publish "worker" (.answered
      { successful := [.file (.str Sample.fileA), .file (.str Sample.fileB)], failed := [] }),
    .finalize "worker" [0, 0] 0 ]

/-- The callback of the sample run comes again after its two files were delivered. -/
theorem replays_are_absorbed_sample :
    (uploadCallback Sample.config (Sample.env 7)
        (System.after Sample.config Sample.twoFileDelivery (by decide)).store
        Sample.evidenceBody).store =
      (System.after Sample.config Sample.twoFileDelivery (by decide)).store ∧
    (createdEntries (System.after Sample.config Sample.twoFileDelivery (by decide)).history).countP
      (fun entry => entry.fileId = .str Sample.fileB) = 1 := by
  have stored : (runActions (System.step Sample.config) System.initial
      (Sample.twoFileDelivery.take 1)).isSome = true := by decide
  have run : System.initial.step Sample.config (.callback (Sample.env 1) Sample.evidenceBody) =
      some (System.after Sample.config (Sample.twoFileDelivery.take 1) stored) := by
    have ran : runActions (System.step Sample.config) System.initial
        [.callback (Sample.env 1) Sample.evidenceBody] = _ := (Option.some_get stored).symm
    rwa [runActions_singleton] at ran
  have reach := System.reaches_after (Sample.twoFileDelivery.take 1)
    (Sample.twoFileDelivery.drop 1) stored (by decide)
  have commits : (System.after Sample.config (Sample.twoFileDelivery.take 1)
      (by decide)).store.metadata ≠ System.initial.store.metadata := by decide
  obtain ⟨same, _, once⟩ := replays_are_absorbed (.refl _) run commits reach (Sample.env 7)
  exact ⟨same, once "evidence" (.str Sample.fileB) (by decide)⟩

end ObjectProcessor
